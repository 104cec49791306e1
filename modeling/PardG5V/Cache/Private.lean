import PardG5V.Cache.RunInv

/-!
# Private caches

A private cache drops the snoops of other guests. When its requests are all of its own guest,
nothing in it can answer such a snoop, so dropping it changes nothing (`snoop_filter_invisible`).
-/

namespace PardG5V

open Prog

variable {cfg : CacheConfig} {s : Cache cfg}

namespace PrivateLemmas

variable {pkt : Packet} {G : GuestID → Prop}

/-- No block answers a packet of a guest that brought nothing in. -/
theorem findBlock_foreign (hguests : s.store.Guests G) (hforeign : ¬ G pkt.guestID) :
    s.store.tags.findBlock pkt.guestID pkt.addr pkt.isSecure = none := by
  cases hfind : s.store.tags.findBlock pkt.guestID pkt.addr pkt.isSecure with
  | none => rfl
  | some w =>
    obtain ⟨hvalid, hline⟩ := LRU.findBlock_line hfind
    have hguest : (s.store.tags.blks (cfg.extractSet pkt.addr) w).guestID = pkt.guestID :=
      congrArg Line.guest hline
    have hG := hguests (.way (cfg.extractSet pkt.addr) w) hvalid
    rw [← Store.tags_blks, hguest] at hG
    exact absurd hG hforeign

theorem isMatch_foreign (hr : s.regs.Proper cfg G) (hforeign : ¬ G pkt.guestID) {q : QueueIndex}
    {i : Nat} (hi : i ∈ (s.queue q).allocatedList) (addr : Addr) :
    MSHRQueue.isMatch ((s.queue q).registers i) pkt.guestID addr pkt.isSecure = false := by
  have hG := hr.guests q i (by rwa [queue_regs])
  rw [queue_regs] at hG
  have hne : ((s.queue q).registers i).guest ≠ pkt.guestID := fun h => hforeign (h ▸ hG)
  simp [MSHRQueue.isMatch, hne]

theorem findMatch_foreign (hr : s.regs.Proper cfg G) (hforeign : ¬ G pkt.guestID) (addr : Addr) :
    s.mshrQueue.findMatch pkt.guestID addr pkt.isSecure = none :=
  List.find?_eq_none.mpr fun _ hi =>
    Bool.eq_false_iff.mp (isMatch_foreign (q := .mshrs) hr hforeign hi addr)

theorem findMatches_foreign (hr : s.regs.Proper cfg G) (hforeign : ¬ G pkt.guestID)
    (addr : Addr) : s.writeBuffer.findMatches pkt.guestID addr pkt.isSecure = [] :=
  List.filter_eq_nil_iff.mpr fun _ hi =>
    Bool.eq_false_iff.mp (isMatch_foreign (q := .writeBuffer) hr hforeign hi addr)

theorem forwardTiming_quiet (pkt : Packet) : CacheM.forwardTiming cfg pkt {} = .ok pkt := by
  unfold CacheM.forwardTiming
  split
  · refine except_bind_eq_ok.mpr ⟨(), rfl, ?_⟩
    simp only [Bool.or_false]
    rfl
  · rfl

theorem forwardAtomic_quiet (pkt : Packet) : CacheM.forwardAtomic cfg pkt {} = .ok pkt := by
  have happly : AtomicAnswer.apply {} pkt = pkt := by simp [AtomicAnswer.apply]
  unfold CacheM.forwardAtomic
  split
  · rw [happly]
    refine except_bind_eq_ok.mpr ⟨(), assert_eq_ok.mpr ?_, rfl⟩
    cases pkt.memInhibit with
    | false | true => rfl
  · rfl

theorem snoopChecks_request (hreq : pkt.isRequest = true) (isTiming : Bool) :
    CacheM.snoopChecks pkt isTiming false false = .ok () := by
  simp [CacheM.snoopChecks, hreq]

theorem handleTimingSnoop_none (hreq : pkt.isRequest = true) :
    CacheM.handleTimingSnoop pkt none false false {} s = .ok (pkt, s) := by
  refine CacheM.check_bind_eq_ok.mpr ⟨(), snoopChecks_request hreq true, ?_⟩
  refine CacheM.check_bind_eq_ok.mpr ⟨pkt, forwardTiming_quiet pkt, ?_⟩
  exact bind_eq_ok.mpr ⟨s, s, get_eq_ok.mpr ⟨rfl, rfl⟩, rfl⟩

theorem handleAtomicSnoop_none (hreq : pkt.isRequest = true) :
    CacheM.handleAtomicSnoop pkt none {} s = .ok (pkt, s) := by
  refine CacheM.check_bind_eq_ok.mpr ⟨(), snoopChecks_request hreq false, ?_⟩
  refine CacheM.check_bind_eq_ok.mpr ⟨pkt, forwardAtomic_quiet pkt, ?_⟩
  exact bind_eq_ok.mpr ⟨s, s, get_eq_ok.mpr ⟨rfl, rfl⟩, rfl⟩

theorem processTimingSnoop_foreign (hs : s.Proper G) (hbypass : cfg.bypassCaches = false)
    (hforeign : ¬ G pkt.guestID) (hreq : pkt.isRequest = true) :
    CacheM.processTimingSnoop pkt {} s = .ok (pkt, s) := by
  refine CacheM.check_bind_eq_ok.mpr ⟨(), by simp [hbypass], ?_⟩
  refine ite_eq_ok.mpr ?_
  cases CacheM.snoopRelevant cfg pkt with
  | false => exact .inr ⟨Bool.false_ne_true, rfl⟩
  | true =>
    refine .inl ⟨rfl, get_bind_eq_ok.mpr ?_⟩
    dsimp only
    rw [findBlock_foreign hs.guests hforeign, findMatch_foreign hs.regs hforeign]
    refine bind_eq_ok.mpr ⟨pkt, s, ?_, handleTimingSnoop_none hreq⟩
    refine get_bind_eq_ok.mpr ?_
    dsimp only
    rw [findMatches_foreign hs.regs hforeign]
    rfl

theorem processAtomicSnoop_foreign (hs : s.Proper G) (hforeign : ¬ G pkt.guestID)
    (hreq : pkt.isRequest = true) :
    CacheM.processAtomicSnoop pkt {} s = .ok (pkt, s) := by
  unfold CacheM.processAtomicSnoop
  split
  · rfl
  · refine get_bind_eq_ok.mpr ?_
    rw [findBlock_foreign hs.guests hforeign]
    exact handleAtomicSnoop_none hreq

end PrivateLemmas

open PrivateLemmas

/-- In every run of a private cache with requests of its own guest, a snoop of another guest is
dropped, and processing it would change nothing when the caches above hold nothing of that guest. -/
theorem snoop_filter_invisible (hprivate : cfg.isPrivate = true)
    (hbypass : cfg.bypassCaches = false)
    (h : Cache.Reachable (Input.Fits cfg True (· = cfg.guestID)) s) {pkt : Packet}
    (hreq : pkt.isRequest = true) (hforeign : pkt.guestID ≠ cfg.guestID) :
    (CacheM.recvTimingSnoopReq pkt {} s = .ok (pkt, s) ∧
      CacheM.processTimingSnoop pkt {} s = .ok (pkt, s)) ∧
    CacheM.recvAtomicSnoop pkt {} s = .ok (pkt, s) ∧
      CacheM.processAtomicSnoop pkt {} s = .ok (pkt, s) := by
  have hs := h.proper.1
  have hdrop : (cfg.isPrivate && pkt.guestID != cfg.guestID) = true := by
    simp [hprivate, hforeign]
  refine ⟨⟨?_, processTimingSnoop_foreign hs hbypass hforeign hreq⟩, ?_,
    processAtomicSnoop_foreign hs hforeign hreq⟩
  · rw [CacheM.recvTimingSnoopReq, if_pos hdrop]
    rfl
  · refine CacheM.check_bind_eq_ok.mpr ⟨(), by simp [hbypass], ?_⟩
    rw [if_pos hdrop]
    rfl

def CacheConfig.ownedByGuest1 : CacheConfig :=
  { CacheConfig.oneBlock with isPrivate := true, guestID := 1 }

def foreignSnoop : Packet := .allocate (.ofRequest { fourBytes 0 with qosTag := 2 } .ReadExReq)

theorem snoop_filter_invisible_writeMiss : ∃ s : Cache .ownedByGuest1, s.firstBlk.isDirty = true ∧
    (CacheM.recvTimingSnoopReq foreignSnoop {} s = .ok (foreignSnoop, s) ∧
      CacheM.processTimingSnoop foreignSnoop {} s = .ok (foreignSnoop, s)) ∧
    CacheM.recvAtomicSnoop foreignSnoop {} s = .ok (foreignSnoop, s) ∧
      CacheM.processAtomicSnoop foreignSnoop {} s = .ok (foreignSnoop, s) := by
  obtain ⟨s, hs, hdirty⟩ := Cache.exists_reachable
    (P := Input.Fits .ownedByGuest1 True (· = 1)) [0xFF, 0xFF] writeMiss
    (fun s : Cache .ownedByGuest1 => s.firstBlk.isDirty = true) (by decide) (by decide +kernel)
  exact ⟨s, hdirty, snoop_filter_invisible rfl rfl hs (by decide) (by decide)⟩

end PardG5V
