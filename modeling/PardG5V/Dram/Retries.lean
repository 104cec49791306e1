import PardG5V.Dram.RefreshProgress

/-!
# Requests that wait for a retry

A refused read is told to try again when the response event runs, a refused write when the request
event schedules itself again and the write queue has room. Neither refusal schedules anything
itself.

Results: `no_lost_retry`, `retry_lost_asleep`.
-/

namespace PardG5V

open Prog FrontLemmas LoopLemmas

variable {cfg : DramConfig}

/-! ## Refused requests -/

namespace DramLoop

variable {l l' : DramLoop cfg} {input : DramInput}

/-- What a refused request waits for: a refused read for a response, a refused write for
the loop. -/
structure Retries (l : DramLoop cfg) : Prop where
  read : l.retryRdReq = true → l.readQueue ≠ [] ∨ l.respQueue ≠ []
  write : l.retryWrReq = true → l.HasWork

/-- The request is refused only if there is something that the requester can wait for. -/
def RefusesSafely (l : DramLoop cfg) (pkt : Packet) : Prop :=
  pkt.memInhibit = false →
    (pkt.isRead = true →
      cfg.readBufferSize < l.readQueue.length + l.respQueue.length + dramPktCount cfg pkt →
        l.readQueue ≠ [] ∨ l.respQueue ≠ []) ∧
    (pkt.isRead = false → pkt.isWrite = true →
      cfg.writeBufferSize < l.writes + dramPktCount cfg pkt → l.HasWork)
deriving Decidable

/-- When the request event schedules itself again, a refused write is only left waiting by
a full write queue, and the loop does not leave that for later. -/
theorem Retries.again (hlow : cfg.writeLowThreshold < cfg.writeBufferSize) {tick : Tick}
    (hread : l.retryRdReq = true → l.readQueue ≠ [] ∨ l.respQueue ≠ []) :
    (l.again tick).Retries := by
  refine ⟨hread, fun hretry => ?_⟩
  have hfull : cfg.writeBufferSize ≤ l.writes :=
    of_decide_eq_true (Bool.and_eq_true_iff.mp hretry).2
  have hlt : cfg.writeLowThreshold < l.writes := Nat.lt_of_lt_of_le hlow hfull
  exact .inr (.inr (.inr ⟨Nat.ne_of_gt (Nat.zero_lt_of_lt hlt), .inr hlt⟩))

theorem Retries.step (hlow : cfg.writeLowThreshold < cfg.writeBufferSize) (h : l.Retries)
    (hsafe : ∀ pkt, input = .timingReq pkt → l.RefusesSafely pkt) (hstep : LoopStep l input l') :
    l'.Retries := by
  cases hstep with
  | same => exact h
  | refuseRead hinhibit hread hfull =>
    exact ⟨fun _ => ((hsafe _ rfl) hinhibit).1 hread hfull, h.write⟩
  | refuseWrite hinhibit hread hwrite hfull =>
    exact ⟨h.read, fun _ => ((hsafe _ rfl) hinhibit).2 hread hwrite hfull⟩
  | read =>
    refine ⟨fun hretry => (h.read hretry).imp_left fun hne => ?_, fun hretry => ?_⟩
    · exact List.append_ne_nil_of_left_ne_nil hne _
    · exact (h.write hretry).mono rfl (fun hne => List.append_ne_nil_of_left_ne_nil hne _) id
  | write hle =>
    refine ⟨h.read, fun hretry => (h.write hretry).mono rfl id fun hwrites => ?_⟩
    exact ⟨Nat.ne_of_gt (Nat.lt_of_lt_of_le (Nat.pos_of_ne_zero hwrites.1) hle),
      hwrites.2.imp_right fun hlt => Nat.lt_of_lt_of_le hlt hle⟩
  | drainReads | drain =>
    exact ⟨h.read, fun hretry => (h.write hretry).mono rfl id fun hw => ⟨hw.1, .inl rfl⟩⟩
  | wait =>
    refine ⟨h.read, fun hretry => ?_⟩
    rcases h.write hretry with hbus | hbus | hwork
    · exact .inr (.inl (by unfold turned; rw [hbus]))
    · exact .inr (.inl (by unfold turned; rw [hbus]))
    · exact .inr (.inr hwork)
  | turn | serveWrite => exact .again hlow h.read
  | sleep _ hbus hempty hwrites =>
    -- the loop had nothing left to do, so no refused write was waiting for it
    refine ⟨h.read, fun hretry => ?_⟩
    rcases h.write hretry with hturn | hturn | hreads | hwants
    · unfold turned at hbus
      rw [hturn] at hbus
      cases hbus
    · unfold turned at hbus
      rw [hturn] at hbus
      cases hbus
    · exact absurd hempty hreads
    · exact absurd hwants hwrites
  | serveRead => exact .again hlow fun _ => .inr (List.append_ne_nil_of_right_ne_nil _ nofun)
  | respond _ hdraining =>
    refine ⟨Bool.noConfusion, fun hretry => (h.write hretry).mono rfl id fun hwrites => ?_⟩
    rcases hdraining with hsame | ⟨_, hzero⟩
    · exact ⟨hwrites.1, hsame ▸ hwrites.2⟩
    · exact absurd hzero hwrites.1
  | refresh | refreshEnd => exact ⟨h.read, h.write⟩

end DramLoop

namespace Dram

/-- A request is refused only while there is something that the requester can wait for. -/
def RetrySafe (s : Dram cfg) : DramInput → Prop
  | .timingReq pkt => s.loop.RefusesSafely pkt
  | _ => True

instance (s : Dram cfg) : DecidablePred s.RetrySafe
  | .timingReq pkt => inferInstanceAs (Decidable (s.loop.RefusesSafely pkt))
  | .event _ | .drain | .set _ | .advance _ => .isTrue trivial

/-- The request event is scheduled, or a refresh is under way that will schedule it. -/
def LoopRuns (s : Dram cfg) : Prop := s.nextReqEvent ≠ none ∨ s.InRefresh

/-- Every refused request will be told to try again: something is scheduled that leads
there, and what is scheduled does what it is waited for. -/
structure RetriesCome (s : Dram cfg) : Prop where
  read : s.retryRdReq = true → s.respondEvent ≠ none ∨ s.readQueue ≠ [] ∧ s.LoopRuns
  write : s.retryWrReq = true → s.loop.HasWork ∧ s.LoopRuns
  -- the response event tells a refused read to try again
  responds : ∀ s', s.Enabled (.event .respond) → DramM.call (.event .respond) s = .ok ((), s') →
    s.retryRdReq = true → s'.answers.head? = some .retry
  -- so does the request event with a refused write, unless the write queue is full
  requests : ∀ s', s.Enabled (.event .nextReq) → DramM.call (.event .nextReq) s = .ok ((), s') →
    s.refreshState = .REF_IDLE → s.retryWrReq = true → s'.answers.head? = some .retry ∨
      cfg.writeBufferSize ≤ s'.writeQueue.length ∧ s'.nextReqEvent ≠ none
  -- the loop goes to sleep with no refused write, and with no refused read but one that
  -- waits for a response
  sleeps : ∀ s', s.Enabled (.event .nextReq) → DramM.call (.event .nextReq) s = .ok ((), s') →
    s.refreshState = .REF_IDLE → s'.nextReqEvent = none →
      s'.retryWrReq = false ∧ (s'.retryRdReq = true → s'.respondEvent ≠ none)
  -- the end of a refresh schedules the request event
  refreshEnds : ∀ s', s.Enabled (.event .power) → DramM.call (.event .power) s = .ok ((), s') →
    s.refreshState ≠ .REF_IDLE → s'.refreshState = .REF_IDLE → s'.nextReqEvent ≠ none

end Dram

/-! ## What the events do -/

namespace RetryLemmas

variable {s s' t : Dram cfg} {input : DramInput}

theorem answers_of_front (h : t.SameFront s') : s'.answers = t.answers :=
  congrArg DramFront.answers h

theorem again_answers (hretry : s.retryWrReq = true) :
    s.again.answers.head? = some .retry ∨ cfg.writeBufferSize ≤ s.again.writeQueue.length := by
  unfold Dram.again Dram.retryWrite
  split
  · exact .inl rfl
  · next hroom => exact .inr (Nat.not_lt.mp fun hlt => hroom ⟨hretry, hlt⟩)

theorem respond_retries (hen : s.Enabled (.event .respond))
    (h : DramM.call (.event .respond) s = .ok ((), s')) (hretry : s.retryRdReq = true) :
    s'.answers.head? = some .retry := by
  obtain ⟨t, hstep, hfront⟩ := call_frontStep hen h
  rw [answers_of_front hfront]
  cases hstep with
  | machine _ hresp => exact absurd rfl hresp
  | @respond pkt rest complete helpers =>
    have hflag : (s.responded pkt rest complete helpers).nextResponse.retryRdReq = true := by
      unfold Dram.nextResponse Dram.drainDone Dram.responded Dram.accessAndRespond
      repeat' split
      all_goals exact hretry
    unfold Dram.retryRead
    rw [if_pos hflag]
    rfl

theorem request_retries (hidle : s.refreshState = .REF_IDLE) (hs : s.loop.Retries)
    (hen : s.Enabled (.event .nextReq)) (h : DramM.call (.event .nextReq) s = .ok ((), s'))
    (hretry : s.retryWrReq = true) : s'.answers.head? = some .retry ∨
      cfg.writeBufferSize ≤ s'.writeQueue.length ∧ s'.nextReqEvent ≠ none := by
  obtain ⟨t, hstep, hfront⟩ := call_frontStep hen h
  have hagain {r : Dram cfg} (hr : r.loop.retryWrReq = true) (ht : t = r.again) :
      s'.answers.head? = some .retry ∨
        cfg.writeBufferSize ≤ s'.writeQueue.length ∧ s'.nextReqEvent ≠ none := by
    subst ht
    have hevent : s'.nextReqEvent = some (max r.nextReqTime r.curTick) :=
      (congrArg DramFront.nextReqEvent hfront).trans
        (congrArg DramLoop.nextReqEvent (again_loop r))
    rw [answers_of_front hfront, hevent,
      show s'.writeQueue = r.again.writeQueue from congrArg DramFront.writeQueue hfront]
    exact (again_answers hr).imp_right fun hfull => ⟨hfull, Option.some_ne_none _⟩
  cases hstep with
  | machine hreq => exact absurd rfl hreq
  | wait hrefresh => exact absurd hidle hrefresh
  | turn =>
    refine hagain ?_ rfl
    rw [turnTo_loop, atRequest_loop]
    exact hretry
  | sleep _ hbus hempty hwrites =>
    have hturned : s.loop.turned = .READ := (turned_eq s).trans hbus
    rcases hs.write hretry with hturn | hturn | hreads | hwants
    · unfold DramLoop.turned at hturned
      rw [hturn] at hturned
      cases hturned
    · unfold DramLoop.turned at hturned
      rw [hturn] at hturned
      cases hturned
    · exact absurd hempty hreads
    · exact absurd ((wantsWrites_iff s).mpr hwants) (Bool.eq_false_iff.mp hwrites)
  | @serveRead pkt rest rowHit cmdAt =>
    obtain ⟨busState, hturned⟩ := turnToWrites_loop
      (({ s.atRequest with readQueue := rest }.served pkt rowHit cmdAt).respondLater
        { pkt with readyTime := cfg.burstEnd cmdAt })
    refine hagain ?_ rfl
    rw [hturned, serveRead_loop]
    exact hretry
  | @serveWrite pkt rest rowHit cmdAt =>
    obtain ⟨busState, hturned⟩ := turnToReads_loop
      ({ s.atRequest with writeQueue := rest }.served pkt rowHit cmdAt)
    refine hagain ?_ rfl
    rw [hturned, serveWrite_loop]
    exact hretry

end RetryLemmas

open RetryLemmas

namespace Dram

variable {s s' : Dram cfg}

theorem Reachable.retries (hlow : cfg.writeLowThreshold < cfg.writeBufferSize)
    (h : s.Reachable RetrySafe) : s.loop.Retries := by
  refine h.loop_induct ⟨Bool.noConfusion, Bool.noConfusion⟩ fun s input l hs hsafe hstep => ?_
  refine hs.step hlow (fun pkt hinput => ?_) hstep
  subst hinput
  exact hsafe

theorem Reachable.loopRuns (htime : 0 < cfg.tRAS + cfg.tRP) {P : Dram cfg → DramInput → Prop}
    (h : s.Reachable P) (hwork : s.loop.HasWork) : s.LoopRuns := by
  rcases eq_or_ne s.refreshState .REF_IDLE with hidle | hrefresh
  · exact .inl (h.awake.idle hidle hwork)
  · exact .inr (h.inRefresh htime hrefresh)

theorem LoopRuns.nextReqEvent (h : s.LoopRuns) (hidle : s.refreshState = .REF_IDLE) :
    s.nextReqEvent ≠ none := by
  rcases h with hevent | hrefresh
  · exact hevent
  · cases hrefresh with
    | drain hstate | pre hstate | closing hstate | power hstate => cases hidle.symm.trans hstate

/-- What a refused read waits for is scheduled. -/
theorem Reachable.read_waits (hlow : cfg.writeLowThreshold < cfg.writeBufferSize)
    (htime : 0 < cfg.tRAS + cfg.tRP) (h : s.Reachable RetrySafe) (hretry : s.retryRdReq = true) :
    s.respondEvent ≠ none ∨ s.readQueue ≠ [] ∧ s.LoopRuns := by
  rcases (h.retries hlow).read hretry with hreads | hresps
  · exact .inr ⟨hreads, h.loopRuns htime (.inr (.inr (.inl hreads)))⟩
  · obtain ⟨next, rest, hqueue⟩ := List.exists_cons_of_ne_nil hresps
    have hevent : s.respondEvent = s.respQueue.head?.map (·.readyTime) := h.responds.event
    rw [show s.respQueue = next :: rest from hqueue] at hevent
    rw [hevent]
    exact .inl (Option.some_ne_none _)

end Dram

/-- In every run in which requests are refused only while the loop has something to do, no
refused request is forgotten. -/
theorem no_lost_retry (hlow : cfg.writeLowThreshold < cfg.writeBufferSize)
    (htime : 0 < cfg.tRAS + cfg.tRP) {s : Dram cfg} (h : s.Reachable Dram.RetrySafe) :
    s.RetriesCome := by
  have hwrite {s : Dram cfg} (h : s.Reachable Dram.RetrySafe) (hretry : s.retryWrReq = true) :
      s.loop.HasWork ∧ s.LoopRuns := by
    have hwork : s.loop.HasWork := (h.retries hlow).write hretry
    exact ⟨hwork, h.loopRuns htime hwork⟩
  constructor
  · exact h.read_waits hlow htime
  · exact hwrite h
  · exact fun s' hen hcall hretry => respond_retries hen hcall hretry
  · exact fun s' hen hcall hidle => request_retries hidle (h.retries hlow) hen hcall
  · intro s' hen hcall hidle hnone
    have hsafe : s.RetrySafe (.event .nextReq) := trivial
    have hs' : s'.Reachable Dram.RetrySafe := h.step hen hsafe hcall
    have hidle' : s'.refreshState = .REF_IDLE := (call_refreshTurn hen hcall).eq_of_idle hidle
    have hstops : ¬ s'.LoopRuns := fun hruns => hruns.nextReqEvent hidle' hnone
    constructor
    · exact Bool.eq_false_iff.mpr fun hretry => hstops (hwrite hs' hretry).2
    · exact fun hretry => (hs'.read_waits hlow htime hretry).resolve_right fun h => hstops h.2
  · intro s' hen hcall hrefresh hidle
    cases call_refreshTurn hen hcall with
    | same hstate => exact absurd (hstate.symm.trans hidle) hrefresh
    | finish _ hnext =>
      rw [hnext]
      exact Option.some_ne_none _

/-- A read of eight bursts is refused while a read of one burst is in the read queue. -/
theorem no_lost_retry_read :
    ∃ s : Dram .oneBank, s.Reachable Dram.RetrySafe ∧ s.retryRdReq = true ∧ s.RetriesCome := by
  obtain ⟨s, hs, hretry⟩ := Dram.exists_reachable (P := Dram.RetrySafe) 0
    [.timingReq (rowsReq .ReadReq 1 1), .timingReq (rowsReq .ReadReq 2 8)]
    (fun s : Dram .oneBank => s.retryRdReq = true) (by decide +kernel)
  exact ⟨s, hs, hretry, no_lost_retry (by decide) (by decide) hs⟩

def DramConfig.lazyWrites : DramConfig :=
  { DramConfig.oneBank with
    writeHighThreshold := 6
    writeLowThreshold := 4
    writeLow_le := by decide }

/-- Four writes are left for later and the request event does not schedule itself again.
A write of five bursts is refused, and only the refresh event is scheduled. -/
theorem retry_lost_asleep :
    ∃ s : Dram .lazyWrites, s.Reachable (fun _ _ => True) ∧ s.retryWrReq = true ∧
      s.nextReqEvent = none ∧ s.respondEvent = none ∧ s.refreshState = .REF_IDLE ∧
      ¬ s.RetriesCome := by
  obtain ⟨s, hs, hretry, hnext, hresp, hidle⟩ := Dram.exists_reachable (P := fun _ _ => True) 0
    [.timingReq (rowsReq .WriteReq 1 1), .timingReq (rowsReq .WriteReq 2 1),
      .timingReq (rowsReq .WriteReq 3 1), .timingReq (rowsReq .WriteReq 4 1), .event .nextReq,
      .timingReq (rowsReq .WriteReq 8 5)]
    (fun s : Dram .lazyWrites => s.retryWrReq = true ∧ s.nextReqEvent = none ∧
      s.respondEvent = none ∧ s.refreshState = .REF_IDLE) (by decide +kernel)
  exact ⟨s, hs, hretry, hnext, hresp, hidle,
    fun hcome => (hcome.write hretry).2.nextReqEvent hidle hnext⟩

end PardG5V
