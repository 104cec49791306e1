import PardG5V.Cache.RegInv

/-!
# Runs of well-formed packets

The blocks and the registers of a cache keep each other's invariants: a response is for the line
of its register, so every request is served by the block of its line, and then the writebacks that
the blocks leave in the write buffer are well formed as well (`Cache.Reachable.proper`).
-/

namespace PardG5V

open Prog Relation RegLemmas

variable {cfg : CacheConfig} {G : GuestID → Prop}

/-- What the log says about the writebacks that were made. -/
def Event.WellFormed (cfg : CacheConfig) (G : GuestID → Prop) : Event → Prop
  | .change .writeback _ _ (some pkt) => Admitted cfg True G pkt
  | _ => True

structure Cache.Proper (G : GuestID → Prop) (s : Cache cfg) : Prop where
  regs : s.regs.Proper cfg G
  clean : s.store.Clean
  guests : s.store.Guests G
  written : ∀ e ∈ s.store.log, e.WellFormed cfg G

theorem Cache.proper_initial (cfg : CacheConfig) (G : GuestID → Prop)
    (waymasks : List (BitVec 64)) : (Cache.initial cfg waymasks).Proper G where
  regs := PardG5V.proper_initial cfg G waymasks
  clean := clean_initial waymasks
  guests := by
    rintro (_ | _) hvalid
    · exact Bool.noConfusion hvalid
    · exact Bool.noConfusion hvalid
  written _ he := absurd he List.not_mem_nil

namespace RunLemmas

theorem writebackPkt_wellFormed (blk : CacheBlk) (set : Nat) :
    (blk.writebackPkt cfg set).WellFormed cfg :=
  ⟨rfl, rfl, rfl, fun _ => rfl⟩

/-- A block is only written back for a guest that brought data in. -/
theorem newEvent_wellFormed {s : Store cfg} {e : Event} (hguests : s.Guests G)
    (h : NewEvent True G s e) : e.WellFormed cfg G := by
  cases h with
  | plain he =>
    cases e with
    | change => exact Bool.noConfusion he
    | _ => trivial
  | victim | insert | allocated | replaced => trivial
  | change h =>
    cases h with
    | writeback hvalid => exact ⟨hguests _ hvalid, fun _ => writebackPkt_wellFormed _ _⟩
    | _ => trivial
  | gone h =>
    cases h with
    | _ => trivial

variable {s s' : Cache cfg}

/-- A response is for the line of its register and of all the requests that wait
there. -/
theorem respFits_of_proper (hr : s.regs.Proper cfg G) {pkt : Packet} (hpkt : pkt ∈ s.outstanding)
    (reply : Reply) : CacheM.RespFits True G s (reply.apply pkt) := by
  intro q i rest hstate _
  obtain ⟨q', i', hown, hbusy⟩ := hr.owner pkt hpkt
  have hmshr : pkt.senderState = .mshr q i :: rest := hstate
  rw [hown] at hmshr
  cases hmshr
  have hline : pkt.line cfg = ((s.queue q).registers i).line cfg := by
    rw [← queue_regs]
    exact hr.lines pkt hpkt q i hown
  rw [queue_regs] at hbusy
  refine ⟨?_, fun _ t ht hcpu => ?_⟩
  · have hguest : pkt.guestID = ((s.queue q).registers i).guest := congrArg Line.guest hline
    have halloc : G ((s.regs.queue q).registers i).guest :=
      hr.guests q i ((hr.queues q).busy i (by rw [queue_regs]; exact hbusy))
    rw [queue_regs, ← hguest] at halloc
    exact halloc
  · have hproper := hr.registers q i
    rw [queue_regs] at hproper
    have hsource : t.source ≠ .fromSnoop := by
      rw [hcpu]
      exact nofun
    obtain ⟨hwf, hfor⟩ := hproper.targets t ht hsource
    exact ⟨hfor.trans hline.symm, hwf.unshared⟩

theorem admitted_of_fits {input : Input} (h : input.Fits cfg True G) :
    input.Admitted cfg True G := by
  cases input with
  | timingReq pkt => exact h
  | timingSnoopResp pkt above => exact h.resolve_right fun hno => hno.1 trivial
  | _ => trivial

end RunLemmas

open RunLemmas

variable {s s' : Cache cfg} {input : Input}

theorem Cache.Proper.moves (hs : s.Proper G) (h : CacheM.call input s = .ok ((), s'))
    (hin : input.Fits cfg True G) : MicroSteps True G s.store s'.store :=
  call_moves h hin (fun _ => hs.clean) fun _ hpkt reply => respFits_of_proper hs.regs hpkt reply

/-- One call keeps the invariants of the blocks and of the registers. -/
theorem Cache.Proper.step (hs : s.Proper G) (h : CacheM.call input s = .ok ((), s'))
    (hin : input.Fits cfg True G) : s'.Proper G := by
  have hmoves := hs.moves h hin
  obtain ⟨hguests, hwritten⟩ := MicroSteps.log_forall
    (fun _ _ hg hmicro => Store.Guests.micro hg hmicro)
    (fun _ _ hg hnew => newEvent_wellFormed hg hnew) hmoves hs.guests hs.written
  refine ⟨?_, hs.clean.steps hmoves, hguests, hwritten⟩
  rcases call_regs h (admitted_of_fits hin) with hregs | ⟨tick, _, rfl⟩
  · refine hregs.keeps (fun r r' hr hstep => hr.step hstep ?_) hs.regs
    exact fun before after pkt hmem => hwritten _ hmem
  · exact { hs.regs with }

/-- The invariants hold in every run of well-formed packets, and such a run only
serves a request from the block of its own line. -/
theorem Cache.Reachable.proper (h : Cache.Reachable (Input.Fits cfg True G) s) :
    s.Proper G ∧ ∃ waymasks, MicroSteps True G (Store.initial cfg waymasks) s.store := by
  refine h.induct (I := fun s => s.Proper G ∧
      ∃ waymasks, MicroSteps True G (Store.initial cfg waymasks) s.store)
    (fun waymasks => ⟨proper_initial cfg G waymasks, waymasks, .refl⟩)
    fun s input s' _ ih hin hcall => ?_
  obtain ⟨hs, waymasks', hpath⟩ := ih
  exact ⟨hs.step hcall hin, waymasks', hpath.trans (hs.moves hcall hin)⟩

end PardG5V
