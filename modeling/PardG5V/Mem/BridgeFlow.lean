import Mathlib.Data.List.Nodup
import Mathlib.Data.List.Perm.Subperm
import PardG5V.Mem.Bridge

/-!
# Flow control of the bridge

Space for a response is reserved when the request is accepted, on one side, and released when the
response has left, on the other. `Bridge.Inv` joins the two queues: which responses are still to
come, and why a refused requester will be asked to retry. `Bridge.Traced` joins the queues with
what the bridge was given and what it sent. Result: `bridge_flow_control`.
-/

namespace PardG5V

open Prog

variable {cfg : BridgeConfig}

/-! ## The invariant -/

namespace Bridge

/-- The two queues of the bridge and the responses that are still to come. -/
structure Inv (b : Bridge cfg) : Prop where
  master : b.master.Inv b.curTick
  slave : b.slave.Inv b.curTick
  numbered : ∀ (i : Nat) (q : BridgePacket), b.master.pushed[i]? = some q → q.id = i
  carries : ∀ q ∈ b.master.pushed, q.expectsResponse = true →
    q.src ≠ invalidPortID ∧ q.pkt.senderState.head? = some (.other q.src.toNat)
  answers : ∀ r ∈ b.slave.pushed, ∃ q ∈ b.master.sent, q.expectsResponse = true ∧ q.id = r.id ∧
    r.dest = q.src
  once : (b.slave.pushed.map BridgePacket.id).Nodup
  count : b.slave.sent.length + b.outstandingResponses =
    b.master.pushed.countP BridgePacket.expectsResponse
  resp_le : b.outstandingResponses ≤ cfg.respQueueLimit
  req_le : b.master.queue.length ≤ cfg.reqQueueLimit
  retry : b.retryReq = true → b.master.queue ≠ [] ∨ b.outstandingResponses ≠ 0

/-- The request as it is queued: numbered, and with its source if a response is expected. -/
def queuedAs (id : Nat) (p : BridgePacket) : BridgePacket :=
  let p := { p with id }.clearDelays
  if p.expectsResponse then p.pushRequestState else p

def enqueue (b : Bridge cfg) (p : BridgePacket) : Bridge cfg :=
  { b with
    master := b.master.push (queuedAs b.master.pushed.length p) (cfg.clockEdge b.curTick cfg.delay)
    outstandingResponses :=
      if p.expectsResponse then b.outstandingResponses + 1 else b.outstandingResponses }

/-! ## What goes in and out -/

/-- The requests that were accepted, the oldest first. -/
def requests (log : List (BridgeInput × BridgeAnswer)) : List BridgePacket :=
  (log.filterMap fun
    | (.recvTimingReq p, .accepted true) => some p
    | _ => none).reverse

/-- How many requests were refused. -/
def refusals (log : List (BridgeInput × BridgeAnswer)) : Nat :=
  (log.map Prod.snd).count (.accepted false)

/-- The responses that came, the oldest first. -/
def responses (log : List (BridgeInput × BridgeAnswer)) : List BridgePacket :=
  (log.filterMap fun
    | (.recvTimingResp p, _) => some p
    | _ => none).reverse

/-- The packet that `send` sent last. -/
def offered (send : BridgeInput) (log : List (BridgeInput × BridgeAnswer)) : Option BridgePacket :=
  log.findSome? fun
    | (input, .offered p) => if input = send then some p else none
    | _ => none

/-- The packets that `send` sent and the peer took by `took`, the oldest first. -/
def taken (send took : BridgeInput) : List (BridgeInput × BridgeAnswer) → List BridgePacket
  | [] => []
  | (input, _) :: log =>
    taken send took log ++ if input = took then (offered send log).toList else []

def forwarded (log : List (BridgeInput × BridgeAnswer)) : List BridgePacket :=
  taken .sendReq (.sentReq true) log

def returned (log : List (BridgeInput × BridgeAnswer)) : List BridgePacket :=
  taken .sendResp (.sentResp true) log

/-- A port has sent what its list says, and is sending the front of it. -/
structure Follows (send took : BridgeInput) (o : Outbox BridgePacket)
    (log : List (BridgeInput × BridgeAnswer)) : Prop where
  sent : o.sent = taken send took log
  offered : o.peer = .offered → o.queue.head?.map Prod.snd = Bridge.offered send log

/-- The lists are what the bridge was given and what it sent. -/
structure Traced (b : Bridge cfg) (log : List (BridgeInput × BridgeAnswer)) : Prop where
  requests : b.master.pushed = (requests log).mapIdx queuedAs
  responses : List.Forall₂ (fun p r => p.clearDelays.popRequestState = .ok r) (responses log)
    b.slave.pushed
  master : Follows .sendReq (.sentReq true) b.master log
  slave : Follows .sendResp (.sentResp true) b.slave log
  refusals : refusals log = b.retries + b.retryReq.toNat

namespace Follows

variable {send took input : BridgeInput} {answer : BridgeAnswer} {o o' : Outbox BridgePacket}
  {p : BridgePacket} {log : List (BridgeInput × BridgeAnswer)}

/-- Another input leaves the front of the list as it is. -/
theorem other (h : Follows send took o log) (hsend : input ≠ send) (htook : input ≠ took)
    (hsent : o'.sent = o.sent) (hoffer : o'.peer = .offered → o.peer = .offered ∧
      o'.queue.head?.map Prod.snd = o.queue.head?.map Prod.snd) :
    Follows send took o' ((input, answer) :: log) where
  sent := by rw [hsent, h.sent, taken, if_neg htook, List.append_nil]
  offered hpeer := by
    obtain ⟨hbefore, hhead⟩ := hoffer hpeer
    rw [hhead, h.offered hbefore]
    cases answer with
    | accepted | done => rfl
    | offered p => simp [Bridge.offered, hsend]

theorem same (h : Follows send took o log) (hsend : input ≠ send) (htook : input ≠ took) :
    Follows send took o ((input, answer) :: log) :=
      h.other hsend htook rfl fun hpeer => ⟨hpeer, rfl⟩

theorem offer (h : Follows send took o log) (hne : send ≠ took)
    (hfront : o.queue.head?.map Prod.snd = some p) :
    Follows send took o.offer ((send, .offered p) :: log) where
  sent := by
    rw [taken, if_neg hne, List.append_nil]
    exact h.sent
  offered _ := by simpa [Bridge.offered, Outbox.offer] using hfront

theorem accept (h : Follows send took o log) (hpeer : o.peer = .offered) (edge : Tick) :
    Follows send took (o.accept edge) ((took, answer) :: log) where
  sent := by
    rw [taken, if_pos rfl, ← h.offered hpeer, ← h.sent]
    rfl
  offered hpeer' := by cases hpeer'

theorem push (h : Follows send took o log) (hpeer : o.peer = .offered → o.queue ≠ [])
    (hsend : input ≠ send) (htook : input ≠ took) (tick : Tick) :
    Follows send took (o.push p tick) ((input, answer) :: log) := by
  refine h.other hsend htook rfl fun hoffered => ⟨hoffered, ?_⟩
  obtain ⟨first, rest, hq⟩ := List.exists_cons_of_ne_nil (hpeer hoffered)
  show (o.queue ++ [_]).head?.map _ = _
  rw [hq]
  rfl

end Follows

end Bridge

/-! ## Programs -/

variable {o : Outbox BridgePacket} {tick : Tick}

namespace BridgeLemmas

variable {b b' : Bridge cfg} {p p' : BridgePacket}

theorem le_clockEdge (cfg : BridgeConfig) (now cycles : Nat) : now ≤ cfg.clockEdge now cycles := by
  have hperiod := cfg.clockPeriod_pos
  have hround : now + cfg.clockPeriod - 1 <
      cfg.clockPeriod * ((now + cfg.clockPeriod - 1) / cfg.clockPeriod + 1) :=
    Nat.lt_mul_div_succ _ hperiod
  have hedge : now ≤ cfg.clockPeriod * ((now + cfg.clockPeriod - 1) / cfg.clockPeriod) := by
    rw [Nat.mul_add_one] at hround
    omega
  rw [Nat.mul_comm] at hedge
  exact Nat.le_trans hedge (Nat.mul_le_mul_right _ (Nat.le_add_right _ _))

theorem queuedAs_same (id : Nat) (p : BridgePacket) :
    (Bridge.queuedAs id p).expectsResponse = p.expectsResponse ∧
      (Bridge.queuedAs id p).id = id ∧ (Bridge.queuedAs id p).src = p.src := by
  unfold Bridge.queuedAs
  dsimp only
  split
  · exact ⟨rfl, rfl, rfl⟩
  · exact ⟨rfl, rfl, rfl⟩

theorem queuedAs_carries (id : Nat) (h : p.expectsResponse = true) :
    (Bridge.queuedAs id p).pkt.senderState.head? = some (.other p.src.toNat) := by
  have heq : Bridge.queuedAs id p = ({ p with id }.clearDelays).pushRequestState := if_pos h
  rw [heq]
  rfl

/-! ### What the calls do -/

theorem recvTimingReq_refused (hretry : b.retryReq = false)
    (hfull : b.reqQueueFull = true ∨ p.expectsResponse = true ∧ b.respQueueFull = true) :
    Bridge.recvTimingReq p b = .ok (false, { b with retryReq := true }) := by
  unfold Bridge.recvTimingReq Bridge.reserveResponse
  cases hreq : b.reqQueueFull with
  | true => simp [hretry, hreq]
  | false =>
    obtain ⟨hexp, hresp⟩ := hfull.resolve_left (by rw [hreq]; nofun)
    simp [hretry, hexp, hresp]

theorem canSchedule_none {event : Option Tick} (hnone : event = none)
    (hle : b.curTick ≤ tick) : b.canSchedule event tick = true := by
  subst hnone
  simpa [Bridge.canSchedule] using hle

theorem reserveResponse_ok (hresp : p.expectsResponse = true → b.respQueueFull = false) :
    Bridge.reserveResponse p b = .ok (true, { b with
      outstandingResponses :=
        if p.expectsResponse then b.outstandingResponses + 1 else b.outstandingResponses }) := by
  unfold Bridge.reserveResponse
  cases hexp : p.expectsResponse with
  | false => simp
  | true =>
    have hfull := hresp hexp
    have hlim : b.outstandingResponses ≠ cfg.respQueueLimit := by
      simpa [Bridge.respQueueFull] using hfull
    simp [hfull, hlim]

theorem scheduleFirst_ok (ho : o.Inv b.curTick) (hle : b.curTick ≤ tick) :
    (Prog.when o.queue.isEmpty (liftM (assert (b.canSchedule o.event tick))) : BridgeM cfg Unit) b =
      .ok ((), b) := by
  cases hempty : o.queue.isEmpty with
  | false => exact when_eq_ok.mpr (.inr ⟨rfl, rfl⟩)
  | true =>
    have hnone := (ho.awake.mp (List.isEmpty_iff.mp hempty)).1
    have hassert := assert_eq_ok (u := ()) |>.mpr (canSchedule_none hnone hle)
    exact when_eq_ok.mpr (.inl ⟨rfl, lift_eq_ok.mpr ⟨hassert, rfl⟩⟩)

theorem schedTimingReq_ok (ho : b.master.Inv b.curTick)
    (hlen : b.master.queue.length ≠ cfg.reqQueueLimit) (hle : b.curTick ≤ tick) :
    Bridge.schedTimingReq p tick b = .ok ((), { b with
      master := b.master.push (if p.expectsResponse then p.pushRequestState else p) tick }) := by
  refine get_bind_eq_ok.mpr ?_
  refine bind_eq_ok.mpr ⟨(), b, scheduleFirst_ok ho hle, ?_⟩
  simp [hlen]

theorem recvTimingReq_accepted (h : b.Inv) (hretry : b.retryReq = false)
    (hreq : b.reqQueueFull = false) (hresp : p.expectsResponse = true → b.respQueueFull = false) :
    Bridge.recvTimingReq p b = .ok (true, b.enqueue p) := by
  have hlen : b.master.queue.length ≠ cfg.reqQueueLimit := by
    simpa [Bridge.reqQueueFull] using hreq
  refine get_bind_eq_ok.mpr ?_
  refine lift_bind_eq_ok.mpr ⟨(), assert_eq_ok.mpr (by rw [hretry]; rfl), ?_⟩
  refine ite_eq_ok.mpr (.inr ⟨by rw [hreq]; nofun, ?_⟩)
  refine bind_eq_ok.mpr ⟨true, _, reserveResponse_ok hresp, ?_⟩
  refine ite_eq_ok.mpr (.inl ⟨rfl, ?_⟩)
  refine get_bind_eq_ok.mpr ?_
  exact bind_eq_ok.mpr ⟨(), _, schedTimingReq_ok h.master hlen (le_clockEdge cfg _ _),
    pure_eq_ok.mpr ⟨rfl, rfl⟩⟩

theorem recvTimingResp_ok (h : b.Inv) (hpop : p.clearDelays.popRequestState = .ok p')
    (hdest : p'.dest ≠ invalidPortID) :
    Bridge.recvTimingResp p b = .ok ((), { b with
      slave := b.slave.push p' (cfg.clockEdge b.curTick cfg.delay) }) := by
  refine get_bind_eq_ok.mpr ?_
  refine lift_bind_eq_ok.mpr ⟨_, hpop, ?_⟩
  refine lift_bind_eq_ok.mpr ⟨(), assert_eq_ok.mpr (bne_iff_ne.mpr hdest), ?_⟩
  refine get_bind_eq_ok.mpr ?_
  exact bind_eq_ok.mpr ⟨(), b, scheduleFirst_ok h.slave (le_clockEdge cfg _ _),
    modify_eq_ok.mpr rfl⟩

/-- The front of a list that is due passes the checks. -/
theorem checkFront_ok (ho : o.Inv b.curTick) (hdue : b.Due o) :
    ∃ p, o.queue.head?.map Prod.snd = some p ∧ Bridge.checkFront b o = .ok p := by
  have hoffer := ho.offer hdue
  have hnil : o.queue ≠ [] := hoffer.ne_nil_of_peer nofun
  obtain ⟨first, rest, hq⟩ := List.exists_cons_of_ne_nil hnil
  have hle : first.1 ≤ b.curTick := hoffer.due nofun first (congrArg List.head? hq)
  unfold Bridge.checkFront
  rw [hq]
  exact ⟨first.2, rfl, except_bind_eq_ok.mpr ⟨(), assert_eq_ok.mpr (decide_eq_true hle), rfl⟩⟩

theorem trySendReq_ok (h : b.Inv) (hdue : b.Due b.master) :
    ∃ p, b.master.queue.head?.map Prod.snd = some p ∧
      Bridge.trySendReq b = .ok (p, { b with master := b.master.offer }) := by
  obtain ⟨p, hfront, hcheck⟩ := checkFront_ok h.master hdue
  unfold Bridge.trySendReq
  exact ⟨p, hfront, by simp [hcheck]⟩

theorem trySendResp_ok (h : b.Inv) (hdue : b.Due b.slave) :
    ∃ p, b.slave.queue.head?.map Prod.snd = some p ∧
      Bridge.trySendResp b = .ok (p, { b with slave := b.slave.offer }) := by
  obtain ⟨p, hfront, hcheck⟩ := checkFront_ok h.slave hdue
  unfold Bridge.trySendResp
  exact ⟨p, hfront, by simp [hcheck]⟩

/-- While a packet is offered the send event is free for the next one. -/
theorem checkNext_ok (ho : o.Inv b.curTick) (hpeer : o.peer = .offered) :
    Bridge.checkNext b o = .ok () := by
  have hnone : o.event = none := by
    cases hevent : o.event with
    | none => rfl
    | some t => cases hpeer.symm.trans (ho.alone (by rw [hevent]; nofun))
  unfold Bridge.checkNext
  split
  · rfl
  · next next rest _ =>
      refine assert_eq_ok.mpr (canSchedule_none hnone ?_)
      exact Nat.le_trans (le_clockEdge cfg _ _) (Nat.le_max_right _ _)

theorem sentReq_refused : Bridge.sentReq false b = .ok ((), { b with master := b.master.refuse }) :=
  rfl

theorem sentReq_accepted (h : b.Inv) (hpeer : b.master.peer = .offered) :
    Bridge.sentReq true b = .ok ((), { b with
      master := b.master.accept (cfg.clockEdge b.curTick 0), retryReq := false
      retries := b.retries + b.retryReq.toNat }) := by
  unfold Bridge.sentReq Bridge.retryStalledReq
  simp [checkNext_ok h.master hpeer]

theorem sentResp_refused : Bridge.sentResp false b = .ok ((), { b with slave := b.slave.refuse }) :=
  rfl

theorem sentResp_accepted (h : b.Inv) (hpeer : b.slave.peer = .offered)
    (hout : b.outstandingResponses ≠ 0) :
    Bridge.sentResp true b = .ok ((), { b with
      slave := b.slave.accept (cfg.clockEdge b.curTick 0)
      outstandingResponses := b.outstandingResponses - 1
      retryReq := b.retryReq && b.reqQueueFull
      retries := b.retries + (b.retryReq && !b.reqQueueFull).toNat }) := by
  unfold Bridge.sentResp Bridge.retryStalledReq
  cases hretry : b.retryReq with
  | false => simp [checkNext_ok h.slave hpeer, hout, hretry]
  | true =>
    cases hfull : b.reqQueueFull with
    | true | false => simp [checkNext_ok h.slave hpeer, hout, hretry, hfull]

end BridgeLemmas

open BridgeLemmas

/-! ## The steps keep the invariant -/

namespace Bridge.Inv

variable {b : Bridge cfg} {p p' q : BridgePacket} (hreq : 1 ≤ cfg.reqQueueLimit)
  (hresp : 1 ≤ cfg.respQueueLimit)

theorem startup (now : Tick) : Inv ({ curTick := now } : Bridge cfg) where
  master := .empty
  slave := .empty
  numbered := fun _ _ h => nomatch h
  carries := fun _ h => nomatch h
  answers := fun _ h => nomatch h
  once := List.nodup_nil
  count := rfl
  resp_le := Nat.zero_le _
  req_le := Nat.zero_le _
  retry := fun h => nomatch h

theorem nodup_ids (h : b.Inv) : (b.master.pushed.map BridgePacket.id).Nodup := by
  have hids : b.master.pushed.map BridgePacket.id = List.range b.master.pushed.length := by
    refine List.ext_getElem (by simp) fun i hi _ => ?_
    rw [List.getElem_map, List.getElem_range]
    exact h.numbered i _ (List.getElem?_eq_getElem _)
  rw [hids]
  exact List.nodup_range

theorem offered_ne_nil {o : Outbox BridgePacket} (h : o.Inv b.curTick) (hpeer : o.peer = .offered) :
    o.queue ≠ [] := h.ne_nil_of_peer (by rw [hpeer]; nofun)

/-- A request that was forwarded had been accepted. -/
theorem accepted_of_sent (h : b.Inv) (hq : q ∈ b.master.sent) : q ∈ b.master.pushed := by
  rw [h.master.fifo]
  exact List.mem_append_left _ hq

/-- A response answers a request of its own, so there are no more of them. -/
theorem responses_le (h : b.Inv) :
    b.slave.pushed.length ≤ b.master.pushed.countP BridgePacket.expectsResponse := by
  have hsub : b.slave.pushed.map BridgePacket.id ⊆
      (b.master.pushed.filter BridgePacket.expectsResponse).map BridgePacket.id := by
    intro i hi
    obtain ⟨r, hr, rfl⟩ := List.mem_map.mp hi
    obtain ⟨q, hq, hexp, hid, -⟩ := h.answers r hr
    exact List.mem_map.mpr ⟨q, List.mem_filter.mpr ⟨h.accepted_of_sent hq, hexp⟩, hid⟩
  have hle := (List.Nodup.subperm h.once hsub).length_le
  rwa [List.length_map, List.length_map, ← List.countP_eq_length_filter] at hle

theorem outstanding_ne_zero (h : b.Inv) (hne : b.slave.queue ≠ []) :
    b.outstandingResponses ≠ 0 := by
  have hle := h.responses_le
  rw [← h.count, h.slave.fifo, List.length_append, List.length_map] at hle
  have hpos := List.length_pos_iff.mpr hne
  omega

include hreq in
theorem queue_ne_nil_of_full (hfull : b.reqQueueFull = true) :
    b.master.queue ≠ [] := by
  have hlen : b.master.queue.length = cfg.reqQueueLimit := beq_iff_eq.mp hfull
  exact List.length_pos_iff.mp (hlen ▸ hreq)

include hreq hresp in
theorem refused (h : b.Inv)
    (hfull : b.reqQueueFull = true ∨ p.expectsResponse = true ∧ b.respQueueFull = true) :
    Inv ({ b with retryReq := true } : Bridge cfg) := by
  refine { h with retry := fun _ => ?_ }
  rcases hfull with hfull | ⟨-, hfull⟩
  · exact .inl (queue_ne_nil_of_full hreq hfull)
  · right
    have hout : b.outstandingResponses = cfg.respQueueLimit := beq_iff_eq.mp hfull
    rw [hout]
    exact Nat.ne_of_gt hresp

theorem enqueue (h : b.Inv) (hsrc : p.src ≠ invalidPortID) (hreq : b.reqQueueFull = false)
    (hresp : p.expectsResponse = true → b.respQueueFull = false) : (b.enqueue p).Inv := by
  obtain ⟨hexpects, hid, hsource⟩ := queuedAs_same b.master.pushed.length p
  refine ⟨h.master.push _ (le_clockEdge cfg _ _), h.slave, fun i q hi => ?_, fun q hq hexp => ?_,
    h.answers, h.once, ?_, ?_, ?_, fun _ => .inl (by simp [Bridge.enqueue, Outbox.push])⟩
  · change (b.master.pushed ++ [queuedAs b.master.pushed.length p])[i]? = some q at hi
    rcases Nat.lt_or_ge i b.master.pushed.length with hlt | hge
    · rw [List.getElem?_append_left hlt] at hi
      exact h.numbered i q hi
    · rw [List.getElem?_append_right hge, List.getElem?_singleton] at hi
      obtain ⟨hzero, hi⟩ := Option.ite_none_right_eq_some.mp hi
      rw [← Option.some.inj hi, hid]
      exact Nat.le_antisymm hge (Nat.le_of_sub_eq_zero hzero)
  · rcases List.mem_append.mp hq with hq | hq
    · exact h.carries q hq hexp
    · cases List.mem_singleton.mp hq
      rw [hexpects] at hexp
      rw [hsource]
      exact ⟨hsrc, queuedAs_carries _ hexp⟩
  · show _ = (b.master.pushed ++ [queuedAs _ p]).countP BridgePacket.expectsResponse
    rw [List.countP_append, ← h.count, List.countP_singleton, hexpects]
    show b.slave.sent.length + (if p.expectsResponse = true then _ else _) = _
    split
    · exact (Nat.add_assoc _ _ _).symm
    · rfl
  · show (if p.expectsResponse = true then _ else _) ≤ _
    split
    · next hexp =>
        have hne : b.outstandingResponses ≠ cfg.respQueueLimit :=
          beq_eq_false_iff_ne.mp (hresp hexp)
        exact Nat.lt_of_le_of_ne h.resp_le hne
    · exact h.resp_le
  · have hne : b.master.queue.length ≠ cfg.reqQueueLimit := beq_eq_false_iff_ne.mp hreq
    show (b.master.queue ++ [_]).length ≤ _
    rw [List.length_append]
    exact Nat.lt_of_le_of_ne h.req_le hne

theorem respond (h : b.Inv) (hq : q ∈ b.pending) (hid : q.id = p'.id)
    (hdest : p'.dest = q.src) (hle : b.curTick ≤ tick) :
    Inv ({ b with slave := b.slave.push p' tick } : Bridge cfg) := by
  obtain ⟨hsent, hpend⟩ := List.mem_filter.mp hq
  rw [Bool.and_eq_true, Bool.not_eq_true', List.any_eq_false] at hpend
  obtain ⟨hexp, hnew⟩ := hpend
  refine { h with slave := h.slave.push p' hle, answers := fun r hr => ?_, once := ?_ }
  · rcases List.mem_append.mp hr with hr | hr
    · exact h.answers r hr
    · cases List.mem_singleton.mp hr
      exact ⟨q, hsent, hexp, hid, hdest⟩
  · show ((b.slave.pushed ++ [p']).map BridgePacket.id).Nodup
    rw [List.map_append, List.map_singleton]
    refine List.nodup_append_comm.mp (List.nodup_cons.mpr ⟨fun hmem => ?_, h.once⟩)
    obtain ⟨r, hr, hrid⟩ := List.mem_map.mp hmem
    exact hnew r hr (beq_iff_eq.mpr (hrid.trans hid.symm))

theorem sentReq (h : b.Inv) (hpeer : b.master.peer = .offered) {n : Nat} : Inv ({ b with
      master := b.master.accept (cfg.clockEdge b.curTick 0)
      retryReq := false, retries := n } : Bridge cfg) := by
  refine { h with
    master := h.master.accept hpeer (le_clockEdge cfg _ _)
    answers := fun r hr => ?_
    req_le := ?_
    retry := fun hretry => (nomatch hretry) }
  · obtain ⟨q, hq, hrest⟩ := h.answers r hr
    exact ⟨q, List.mem_append_left _ hq, hrest⟩
  · show b.master.queue.tail.length ≤ cfg.reqQueueLimit
    rw [List.length_tail]
    exact Nat.le_trans (Nat.sub_le _ _) h.req_le

include hreq in
theorem sentResp (h : b.Inv) (hpeer : b.slave.peer = .offered) {n : Nat} :
    Inv ({ b with
      slave := b.slave.accept (cfg.clockEdge b.curTick 0)
      outstandingResponses := b.outstandingResponses - 1
      retryReq := b.retryReq && b.reqQueueFull, retries := n } : Bridge cfg) := by
  have hne := offered_ne_nil h.slave hpeer
  have hout := h.outstanding_ne_zero hne
  obtain ⟨first, rest, hq⟩ := List.exists_cons_of_ne_nil hne
  refine { h with
    slave := h.slave.accept hpeer (le_clockEdge cfg _ _)
    count := ?_
    resp_le := Nat.le_trans (Nat.sub_le _ _) h.resp_le
    retry := fun hretry => ?_ }
  · show (b.slave.sent ++ (b.slave.queue.head?.map Prod.snd).toList).length +
      (b.outstandingResponses - 1) = _
    rw [← h.count, hq, List.length_append]
    show b.slave.sent.length + 1 + (b.outstandingResponses - 1) = _
    omega
  · exact .inl (queue_ne_nil_of_full hreq (Bool.and_eq_true_iff.mp hretry).2)

theorem advance (h : b.Inv) (hle : b.curTick ≤ tick)
    (hmaster : ∀ t ∈ b.master.event, tick ≤ t) (hslave : ∀ t ∈ b.slave.event, tick ≤ t) :
    Inv ({ b with curTick := tick } : Bridge cfg) :=
  { h with master := h.master.advance hle hmaster, slave := h.slave.advance hle hslave }

/-- A response brings back what the request carries: its source is the destination. -/
theorem popRequestState (h : b.Inv) (hq : q ∈ b.pending)
    (hstate : q.pkt.senderState = p.pkt.senderState) :
    ∃ p', p.clearDelays.popRequestState = .ok p' ∧ p'.id = p.id ∧ p'.dest = q.src ∧
      q.src ≠ invalidPortID := by
  obtain ⟨hsent, hpend⟩ := List.mem_filter.mp hq
  obtain ⟨hsrc, hhead⟩ := h.carries q (h.accepted_of_sent hsent) (Bool.and_eq_true_iff.mp hpend).1
  rw [hstate] at hhead
  obtain ⟨rest, hrest⟩ := List.head?_eq_some_iff.mp hhead
  have hpop : p.clearDelays.popRequestState = .ok
      { p.clearDelays with
        pkt := { p.clearDelays.pkt with senderState := rest }
        dest := BitVec.ofNat 16 q.src.toNat } := by
    unfold BridgePacket.popRequestState BridgePacket.clearDelays
    rw [hrest]
  exact ⟨_, hpop, rfl, BitVec.ofNat_toNat _ _, hsrc⟩

include hreq hresp in
/-- No input that the ports promise fails an assertion, and the invariant is kept, as is what the
lists say about the run. -/
theorem step (h : b.Inv) {input : BridgeInput} (hen : b.Enabled input)
    {log : List (BridgeInput × BridgeAnswer)} (ht : b.Traced log) :
    ∃ answer b', call input b = .ok (answer, b') ∧ b'.Inv ∧ b'.Traced ((input, answer) :: log) := by
  cases input with
  | recvTimingReq p =>
    obtain ⟨hretry, hsrc⟩ := hen
    have hslave (answer : BridgeAnswer) : Follows .sendResp (.sentResp true) b.slave
        ((.recvTimingReq p, answer) :: log) := ht.slave.same (by rintro ⟨⟩) (by rintro ⟨⟩)
    by_cases hfull : b.reqQueueFull = true ∨ p.expectsResponse = true ∧ b.respQueueFull = true
    · exact ⟨_, _, map_eq_ok.mpr ⟨false, recvTimingReq_refused hretry hfull, rfl⟩,
        h.refused hreq hresp hfull, ht.requests, ht.responses,
        ht.master.same (by rintro ⟨⟩) (by rintro ⟨⟩), hslave _,
        by simpa [hretry, refusals] using ht.refusals⟩
    · have hroom : b.reqQueueFull = false := by
        simpa using fun hfull' => hfull (.inl hfull')
      have hspace : p.expectsResponse = true → b.respQueueFull = false := fun hexp => by
        simpa using fun hfull' => hfull (.inr ⟨hexp, hfull'⟩)
      refine ⟨_, _, map_eq_ok.mpr ⟨true, recvTimingReq_accepted h hretry hroom hspace, rfl⟩,
        h.enqueue hsrc hroom hspace, ?_, ht.responses,
        ht.master.push (offered_ne_nil h.master) (by rintro ⟨⟩) (by rintro ⟨⟩) _, hslave _,
        ht.refusals⟩
      show b.master.pushed ++ [queuedAs b.master.pushed.length p] = _
      rw [ht.requests, List.length_mapIdx]
      simp [requests, List.mapIdx_append]
  | recvTimingResp p =>
    obtain ⟨q, hq, hid, hstate⟩ := hen
    obtain ⟨p', hpop, hid', hdest, hsrc⟩ := h.popRequestState hq hstate
    refine ⟨_, _, map_eq_ok.mpr ⟨(), recvTimingResp_ok h hpop (hdest ▸ hsrc), rfl⟩,
      h.respond hq (hid.trans hid'.symm) hdest (le_clockEdge cfg _ _), ht.requests, ?_,
      ht.master.same (by rintro ⟨⟩) (by rintro ⟨⟩),
      ht.slave.push (offered_ne_nil h.slave) (by rintro ⟨⟩) (by rintro ⟨⟩) _, ht.refusals⟩
    rw [show responses (_ :: log) = responses log ++ [p] by simp [responses]]
    exact List.rel_append ht.responses (.cons hpop .nil)
  | sendReq =>
    obtain ⟨p, hfront, hcall⟩ := trySendReq_ok h hen.2
    exact ⟨_, _, map_eq_ok.mpr ⟨p, hcall, rfl⟩, { h with master := h.master.offer hen.2 },
      ht.requests, ht.responses, ht.master.offer (by rintro ⟨⟩) hfront,
      ht.slave.same (by rintro ⟨⟩) (by rintro ⟨⟩), ht.refusals⟩
  | sentReq accepted =>
    have hslave : Follows .sendResp (.sentResp true) b.slave ((.sentReq accepted, .done) :: log) :=
      ht.slave.same (by rintro ⟨⟩) (by rintro ⟨⟩)
    cases accepted with
    | true =>
      exact ⟨_, _, map_eq_ok.mpr ⟨(), sentReq_accepted h hen, rfl⟩, h.sentReq hen, ht.requests,
        ht.responses, ht.master.accept hen _, hslave, ht.refusals⟩
    | false =>
      exact ⟨_, _, map_eq_ok.mpr ⟨(), sentReq_refused, rfl⟩,
        { h with master := h.master.refuse hen }, ht.requests, ht.responses,
        ht.master.other (by rintro ⟨⟩) (by rintro ⟨⟩) rfl (by rintro ⟨⟩), hslave, ht.refusals⟩
  | sendResp =>
    obtain ⟨p, hfront, hcall⟩ := trySendResp_ok h hen.2
    exact ⟨_, _, map_eq_ok.mpr ⟨p, hcall, rfl⟩, { h with slave := h.slave.offer hen.2 },
      ht.requests, ht.responses, ht.master.same (by rintro ⟨⟩) (by rintro ⟨⟩),
      ht.slave.offer (by rintro ⟨⟩) hfront, ht.refusals⟩
  | sentResp accepted =>
    have hmaster : Follows .sendReq (.sentReq true) b.master ((.sentResp accepted, .done) :: log) :=
      ht.master.same (by rintro ⟨⟩) (by rintro ⟨⟩)
    cases accepted with
    | true =>
      have hout := h.outstanding_ne_zero (offered_ne_nil h.slave hen)
      refine ⟨_, _, map_eq_ok.mpr ⟨(), sentResp_accepted h hen hout, rfl⟩, h.sentResp hreq hen,
        ht.requests, ht.responses, hmaster, ht.slave.accept hen _, ht.refusals.trans ?_⟩
      cases b.retryReq <;> cases b.reqQueueFull <;> rfl
    | false =>
      exact ⟨_, _, map_eq_ok.mpr ⟨(), sentResp_refused, rfl⟩,
        { h with slave := h.slave.refuse hen }, ht.requests, ht.responses, hmaster,
        ht.slave.other (by rintro ⟨⟩) (by rintro ⟨⟩) rfl (by rintro ⟨⟩), ht.refusals⟩
  | advance tick =>
    exact ⟨_, _, map_eq_ok.mpr ⟨(), modify_eq_ok.mpr rfl, rfl⟩,
      h.advance hen.2.1 hen.2.2.1 hen.2.2.2, ht.requests, ht.responses,
      ht.master.same (by rintro ⟨⟩) (by rintro ⟨⟩), ht.slave.same (by rintro ⟨⟩) (by rintro ⟨⟩),
      ht.refusals⟩

end Bridge.Inv

theorem Bridge.inv_of_reachable {r : Bridge cfg × List (BridgeInput × BridgeAnswer)}
    (h : (machine cfg).Reachable r) (hreq : 1 ≤ cfg.reqQueueLimit)
    (hresp : 1 ≤ cfg.respQueueLimit) : r.1.Inv ∧ r.1.Traced r.2 := by
  refine h.recorded (I := fun b log => b.Inv ∧ b.Traced log) ?_
    fun b log input answer b' hb hen _ hcall => ?_
  · rintro _ ⟨now, rfl⟩
    exact ⟨.startup now, rfl, .nil, ⟨rfl, by rintro ⟨⟩⟩, ⟨rfl, by rintro ⟨⟩⟩, rfl⟩
  · obtain ⟨_, _, hcall', hinv, htraced⟩ := hb.1.step hreq hresp hen hb.2
    cases hcall.symm.trans hcall'
    exact ⟨hinv, htraced⟩

/-! ## Every packet can leave -/

/-- The input brings no new packet. -/
def BridgeInput.isSend : BridgeInput → Bool
  | .recvTimingReq _ => false
  | .recvTimingResp _ => false
  | _ => true

namespace Bridge

def Sends (b b' : Bridge cfg) : Prop :=
  ∃ input answer, BridgeInput.isSend input = true ∧ b.Enabled input ∧
    call input b = .ok (answer, b')

def queued (b : Bridge cfg) : Nat := b.master.queue.length + b.slave.queue.length

/-- Fewer of the same packets are queued. -/
def Shorter (b b' : Bridge cfg) : Prop :=
  b'.master.pushed = b.master.pushed ∧ b'.slave.pushed = b.slave.pushed ∧ b'.queued < b.queued

namespace Inv

variable {b : Bridge cfg} (hreq : 1 ≤ cfg.reqQueueLimit) (hresp : 1 ≤ cfg.respQueueLimit)

theorem accept_request (h : b.Inv) (hpeer : b.master.peer = .offered) :
    ∃ b', b.Sends b' ∧ b'.Inv ∧ b.Shorter b' := by
  have hne := offered_ne_nil h.master hpeer
  refine ⟨_, ⟨.sentReq true, _, rfl, hpeer, map_eq_ok.mpr ⟨(), sentReq_accepted h hpeer, rfl⟩⟩,
    h.sentReq hpeer, rfl, rfl, ?_⟩
  show b.master.queue.tail.length + b.slave.queue.length < _
  rw [List.length_tail]
  exact Nat.add_lt_add_right (Nat.sub_one_lt_of_lt (List.length_pos_iff.mpr hne)) _

include hreq in
theorem accept_response (h : b.Inv) (hpeer : b.slave.peer = .offered) :
    ∃ b', b.Sends b' ∧ b'.Inv ∧ b.Shorter b' := by
  have hne := offered_ne_nil h.slave hpeer
  have hcall := sentResp_accepted h hpeer (h.outstanding_ne_zero hne)
  refine ⟨_, ⟨.sentResp true, _, rfl, hpeer, map_eq_ok.mpr ⟨(), hcall, rfl⟩⟩,
    h.sentResp hreq hpeer, rfl, rfl, ?_⟩
  show b.master.queue.length + b.slave.queue.tail.length < _
  rw [List.length_tail]
  exact Nat.add_lt_add_left (Nat.sub_one_lt_of_lt (List.length_pos_iff.mpr hne)) _

include hreq in
/-- A port that is due sends its first packet, and the peer takes it. -/
theorem send_due (h : b.Inv) (hsettled : b.Settled) (hdue : b.Due b.master ∨ b.Due b.slave) :
    ∃ b', Relation.ReflTransGen Sends b b' ∧ b'.Inv ∧ b.Shorter b' := by
  rcases hdue with hdue | hdue
  · have hen : b.Enabled .sendReq := ⟨hsettled, hdue⟩
    obtain ⟨p, -, hcall⟩ := trySendReq_ok h hdue
    have hinv : Inv { b with master := b.master.offer } :=
      { h with master := h.master.offer hdue }
    obtain ⟨b', hsend, hinv', hshort⟩ := hinv.accept_request rfl
    have hfirst : b.Sends _ := ⟨.sendReq, _, rfl, hen, map_eq_ok.mpr ⟨p, hcall, rfl⟩⟩
    exact ⟨b', .tail (.single hfirst) hsend, hinv', hshort⟩
  · have hen : b.Enabled .sendResp := ⟨hsettled, hdue⟩
    obtain ⟨p, -, hcall⟩ := trySendResp_ok h hdue
    have hinv : Inv { b with slave := b.slave.offer } := { h with slave := h.slave.offer hdue }
    obtain ⟨b', hsend, hinv', hshort⟩ := hinv.accept_response hreq rfl
    have hfirst : b.Sends _ := ⟨.sendResp, _, rfl, hen, map_eq_ok.mpr ⟨p, hcall, rfl⟩⟩
    exact ⟨b', .tail (.single hfirst) hsend, hinv', hshort⟩

/-- A queue with a packet has its event scheduled. Of the two events one is the earlier. -/
theorem earliest (h : b.Inv) (hne : b.queued ≠ 0) (hm : b.master.peer = .ready)
    (hs : b.slave.peer = .ready) : ∃ t, (b.master.event = some t ∨ b.slave.event = some t) ∧
      (∀ t' ∈ b.master.event, t ≤ t') ∧ ∀ t' ∈ b.slave.event, t ≤ t' := by
  cases hem : b.master.event with
  | none =>
    cases hes : b.slave.event with
    | none =>
      refine absurd ?_ hne
      unfold Bridge.queued
      rw [h.master.awake.mpr ⟨hem, hm⟩, h.slave.awake.mpr ⟨hes, hs⟩]
      rfl
    | some t => exact ⟨t, .inr rfl, nofun, fun t' ht => Option.some.inj ht ▸ Nat.le_refl _⟩
  | some t =>
    cases hes : b.slave.event with
    | none => exact ⟨t, .inl rfl, fun t' ht => Option.some.inj ht ▸ Nat.le_refl _, nofun⟩
    | some u =>
      refine ⟨min t u, ?_, fun t' ht => ?_, fun u' hu => ?_⟩
      · rcases Nat.le_total t u with hle | hle
        · exact .inl (by rw [Nat.min_eq_left hle])
        · exact .inr (by rw [Nat.min_eq_right hle])
      · exact Option.some.inj ht ▸ Nat.min_le_left _ _
      · exact Option.some.inj hu ▸ Nat.min_le_right _ _

theorem await (h : b.Inv) (hsettled : b.Settled) {t : Tick}
    (hmaster : ∀ t' ∈ b.master.event, t ≤ t') (hslave : ∀ t' ∈ b.slave.event, t ≤ t')
    (hevent : b.master.event = some t ∨ b.slave.event = some t) :
    b.Sends { b with curTick := t } ∧ Inv ({ b with curTick := t } : Bridge cfg) := by
  have hle : b.curTick ≤ t := by
    rcases hevent with hevent | hevent
    · exact (h.master.ahead t hevent).1
    · exact (h.slave.ahead t hevent).1
  exact ⟨⟨.advance t, .done, rfl, ⟨hsettled, hle, hmaster, hslave⟩, rfl⟩,
    h.advance hle hmaster hslave⟩

include hreq in
/-- As long as a packet is queued, one can leave. -/
theorem progress (h : b.Inv) (hne : b.queued ≠ 0) :
    ∃ b', Relation.ReflTransGen Sends b b' ∧ b'.Inv ∧ b.Shorter b' := by
  by_cases hsettled : b.Settled
  · cases hm : b.master.peer with
    | offered => exact absurd hm hsettled.1
    | refused => exact h.send_due hreq hsettled (.inl (.inr hm))
    | ready =>
      cases hs : b.slave.peer with
      | offered => exact absurd hs hsettled.2
      | refused => exact h.send_due hreq hsettled (.inr (.inr hs))
      | ready =>
        obtain ⟨t, hevent, hmaster, hslave⟩ := h.earliest hne hm hs
        obtain ⟨hsend, hinv⟩ := h.await hsettled hmaster hslave hevent
        obtain ⟨b', hsends, hinv', hshort⟩ := hinv.send_due hreq hsettled
          (hevent.imp .inl .inl)
        exact ⟨b', .head hsend hsends, hinv', hshort⟩
  · rcases not_and_or.mp hsettled with hm | hs
    · obtain ⟨b', hsend, hrest⟩ := h.accept_request (not_not.mp hm)
      exact ⟨b', .single hsend, hrest⟩
    · obtain ⟨b', hsend, hrest⟩ := h.accept_response hreq (not_not.mp hs)
      exact ⟨b', .single hsend, hrest⟩

include hreq in
/-- Without new packets the queues can be emptied. -/
theorem drains (h : b.Inv) :
    ∃ b', Relation.ReflTransGen Sends b b' ∧ b'.master.sent = b.master.pushed ∧
      b'.slave.sent = b.slave.pushed := by
  -- by the number of queued packets
  induction hn : b.queued using Nat.strongRecOn generalizing b with
  | ind n ih =>
    by_cases hne : b.queued = 0
    · obtain ⟨hm, hs⟩ := Nat.add_eq_zero_iff.mp hne
      refine ⟨b, .refl, ?_, ?_⟩
      · rw [h.master.fifo, List.length_eq_zero_iff.mp hm, List.map_nil, List.append_nil]
      · rw [h.slave.fifo, List.length_eq_zero_iff.mp hs, List.map_nil, List.append_nil]
    · obtain ⟨b₁, hsends, hinv, hpm, hps, hlt⟩ := h.progress hreq hne
      obtain ⟨b', hsends', hm, hs⟩ := ih b₁.queued (hn ▸ hlt) hinv rfl
      exact ⟨b', hsends.trans hsends', hm.trans hpm, hs.trans hps⟩

end Inv

end Bridge

/-! ## Flow control -/

namespace Bridge

/-- The accepted requests that need a response which has not been sent back yet. -/
def unanswered (b : Bridge cfg) : List BridgePacket :=
  b.accepted.filter fun q => q.expectsResponse && !b.slave.sent.any (·.id == q.id)

/-- The requests whose response was sent back are as many as the responses. -/
theorem Inv.answered_length {b : Bridge cfg} (h : b.Inv) :
    ((b.accepted.filter BridgePacket.expectsResponse).filter
      fun q => b.slave.sent.any (·.id == q.id)).length = b.slave.sent.length := by
  have hnodup : (b.slave.sent.map BridgePacket.id).Nodup := by
    have honce := h.once
    rw [h.slave.fifo, List.map_append] at honce
    exact honce.of_append_left
  have hanswered : (((b.accepted.filter BridgePacket.expectsResponse).filter
      fun q => b.slave.sent.any (·.id == q.id)).map BridgePacket.id).Nodup :=
    h.nodup_ids.sublist ((List.filter_sublist.trans List.filter_sublist).map _)
  have hperm := (List.perm_ext_iff_of_nodup hanswered hnodup).mpr fun i => by
    constructor
    · intro hi
      obtain ⟨q, hq, rfl⟩ := List.mem_map.mp hi
      obtain ⟨r, hr, hid⟩ := List.any_eq_true.mp (List.mem_filter.mp hq).2
      exact List.mem_map.mpr ⟨r, hr, beq_iff_eq.mp hid⟩
    · intro hi
      obtain ⟨r, hr, rfl⟩ := List.mem_map.mp hi
      have hpushed : r ∈ b.slave.pushed := by
        rw [h.slave.fifo]
        exact List.mem_append_left _ hr
      obtain ⟨q, hq, hexp, hid, -⟩ := h.answers r hpushed
      have hany : b.slave.sent.any (·.id == q.id) = true :=
        List.any_eq_true.mpr ⟨r, hr, beq_iff_eq.mpr hid.symm⟩
      have hmem := List.mem_filter.mpr ⟨h.accepted_of_sent hq, hexp⟩
      exact List.mem_map.mpr ⟨q, List.mem_filter.mpr ⟨hmem, hany⟩, hid⟩
  simpa using hperm.length_eq

theorem Inv.outstanding_eq {b : Bridge cfg} (h : b.Inv) :
    b.outstandingResponses = b.unanswered.length := by
  have hunanswered : b.unanswered = (b.accepted.filter BridgePacket.expectsResponse).filter
      fun q => !b.slave.sent.any (·.id == q.id) := by
    rw [List.filter_filter]
    exact List.filter_congr fun q _ => Bool.and_comm _ _
  have hsplit := List.length_eq_length_filter_add
    (l := b.accepted.filter BridgePacket.expectsResponse) fun q => b.slave.sent.any (·.id == q.id)
  rw [h.answered_length, ← hunanswered, ← List.countP_eq_length_filter] at hsplit
  exact Nat.add_left_cancel (h.count.trans hsplit)

structure FlowControl (b : Bridge cfg) (log : List (BridgeInput × BridgeAnswer)) : Prop where
  /-- A slot of the response queue is reserved for every response that is still to be sent. -/
  reserved : b.outstandingResponses = b.unanswered.length
  responses_le : b.outstandingResponses ≤ cfg.respQueueLimit
  requests_le : b.master.queue.length ≤ cfg.reqQueueLimit
  /-- The requests leave in the order in which they were accepted, each one once. -/
  accepted : b.accepted = (requests log).mapIdx queuedAs
  forwarded : b.master.sent = forwarded log
  requests : b.accepted = b.master.sent ++ b.master.queue.map Prod.snd
  requests_once : (b.accepted.map BridgePacket.id).Nodup
  /-- The responses leave in the order in which they came, each one once. -/
  received : List.Forall₂ (fun p r => p.clearDelays.popRequestState = .ok r) (Bridge.responses log)
    b.slave.pushed
  returned : b.slave.sent = returned log
  responses : b.slave.pushed = b.slave.sent ++ b.slave.queue.map Prod.snd
  responses_once : (b.slave.pushed.map BridgePacket.id).Nodup
  /-- A response goes back to the port from which its request came. -/
  restored : ∀ r ∈ b.slave.pushed, ∃ q ∈ b.master.sent, q.expectsResponse = true ∧ q.id = r.id ∧
    r.dest = q.src
  /-- A refused requester has got its retry, or waits for a packet that is still to leave. -/
  refused : refusals log = b.retries + b.retryReq.toNat
  retried : b.retryReq = true → b.master.queue ≠ [] ∨ b.unanswered ≠ []
  /-- Every queued packet can leave. -/
  leaves : ∃ b', Relation.ReflTransGen Sends b b' ∧ b'.master.sent = b.accepted ∧
    b'.slave.sent = b.slave.pushed
  /-- No assertion fails. -/
  runs : ∀ input, b.Enabled input → ∃ answer b', call input b = .ok (answer, b')

end Bridge

/-- Flow control of the bridge, with room for a request and for a response at least, in every run
with its inputs and answers. -/
theorem bridge_flow_control (hreq : 1 ≤ cfg.reqQueueLimit) (hresp : 1 ≤ cfg.respQueueLimit)
    {b : Bridge cfg} {log : List (BridgeInput × BridgeAnswer)}
    (h : (Bridge.machine cfg).Reachable (b, log)) : b.FlowControl log := by
  obtain ⟨hinv, ht⟩ := Bridge.inv_of_reachable h hreq hresp
  have hout := hinv.outstanding_eq
  refine ⟨hout, hinv.resp_le, hinv.req_le, ht.requests, ht.master.sent, hinv.master.fifo,
    hinv.nodup_ids, ht.responses, ht.slave.sent, hinv.slave.fifo, hinv.once, hinv.answers,
    ht.refusals, fun hretry => ?_, hinv.drains hreq, fun input hen => ?_⟩
  · refine (hinv.retry hretry).imp_right fun hne hnil => hne ?_
    rw [hout, hnil]
    rfl
  · obtain ⟨answer, b', hcall, -⟩ := hinv.step hreq hresp hen ht
    exact ⟨answer, b', hcall⟩

/-! A bridge with one slot on either side: the second request is refused for the first one's
place in the request queue, and again, after the retry, for its response. That response comes
back to the port of its request, and the second request can be sent. -/

namespace Bridge

def narrow : BridgeConfig := ⟨1, 1, 1, 1, Nat.one_pos⟩

def readFrom (src : PortID) : BridgePacket :=
  { pkt := Packet.ofRequest { paddr := 0x100, size := 8, qosTag := 0 } .ReadReq, src }

def refusedTwice : List BridgeInput :=
  [.recvTimingReq (readFrom 1), .recvTimingReq (readFrom 2), .advance 1, .sendReq, .sentReq true,
    .recvTimingReq (readFrom 2), .recvTimingResp (queuedAs 0 (readFrom 1)), .advance 2, .sendResp,
    .sentResp true, .recvTimingReq (readFrom 2)]

end Bridge

theorem bridge_flow_control_refused : ∃ (b : Bridge Bridge.narrow) (log : _),
    Bridge.forwarded log = [Bridge.queuedAs 0 (Bridge.readFrom 1)] ∧
    (Bridge.returned log).map BridgePacket.dest = [1] ∧ b.master.queue.length = 1 ∧
    b.FlowControl log := by
  obtain ⟨⟨b, log⟩, hreach, hforwarded, hreturned, hqueued⟩ :=
    Machine.ReachableBy.exists_of_replay
      (p := fun r => Bridge.forwarded r.2 = [Bridge.queuedAs 0 (Bridge.readFrom 1)] ∧
        (Bridge.returned r.2).map BridgePacket.dest = [1] ∧ r.1.master.queue.length = 1)
      (.startup ⟨⟨0, rfl⟩, rfl⟩ : (Bridge.machine Bridge.narrow).Reachable ({}, []))
      Bridge.refusedTwice (by decide +kernel)
  exact ⟨b, log, hforwarded, hreturned, hqueued,
    bridge_flow_control (Nat.le_refl 1) (Nat.le_refl 1) hreach⟩

end PardG5V
