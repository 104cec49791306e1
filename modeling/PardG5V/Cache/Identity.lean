import PardG5V.Cache.Handover
import PardG5V.Cache.RunInv

/-!
# The identity of blocks and of what they write out

A block names its line by a guest, a tag and a security bit. `access` gives a new block to a
secure writeback from above and then overwrites the status word, so the block is no longer secure.
`writebackVisitor` makes its request with `setPhys` alone, so its packet has neither the guest nor
the security bit of the block.

Results: `tag_store_identity`, `write_out_identity`, `secure_writeback_loses_security`,
`flush_loses_guest`.
-/

namespace PardG5V

open Prog Relation CacheBlk

variable {cfg : CacheConfig}

/-! ## The tag store -/

namespace IdentityLemmas

/-- A run of well-formed packets without a secure writeback that gets a new block names
its blocks. -/
theorem named_of_reachable {s : Cache cfg}
    (h : Cache.Reachable (Input.Fits cfg True fun _ => True) s)
    (hplain : s.store.NoSecureAllocated) : s.store.Named := by
  obtain ⟨_, waymasks, hpath⟩ := h.proper
  exact (named_initial waymasks).steps (clean_initial waymasks) hpath hplain

end IdentityLemmas

open IdentityLemmas

/-- In every run in which no secure writeback is given a new block, every set holds its original
blocks, no two valid blocks of a set are for one line, and a valid block names the line of the
packets that brought its data. -/
theorem tag_store_identity {s : Cache cfg}
    (h : Cache.Reachable (Input.Fits cfg True fun _ => True) s)
    (hplain : s.store.NoSecureAllocated) :
    (∀ set, (s.store.tags.sets set).blks.Perm (List.finRange cfg.assoc)) ∧
    (∀ set v w, (s.store.blk (.way set v)).isValid = true →
      (s.store.blk (.way set w)).isValid = true →
      (s.store.blk (.way set v)).guestID = (s.store.blk (.way set w)).guestID →
      (s.store.blk (.way set v)).tag = (s.store.blk (.way set w)).tag →
      (s.store.blk (.way set v)).isSecure = (s.store.blk (.way set w)).isSecure → v = w) ∧
    ∀ set w, (s.store.blk (.way set w)).isValid = true →
      (s.store.blk (.way set w)).sources ≠ [] ∧
      ∀ src ∈ (s.store.blk (.way set w)).sources,
        src = (s.store.blk (.way set w)).line cfg set := by
  have hnamed := named_of_reachable h hplain
  exact ⟨fun set => (s.store.tags.sets set).perm, hnamed.unique,
    fun set w hvalid => hnamed.sources (.way set w) hvalid⟩

theorem tag_store_identity_writeMiss : ∃ s : Cache .oneBlock, s.firstBlk.isValid = true ∧
    s.firstBlk.sources ≠ [] ∧ ∀ src ∈ s.firstBlk.sources, src = s.firstBlk.line .oneBlock 0 := by
  obtain ⟨s, hs, hvalid, hnone⟩ := Cache.exists_reachable
    (P := Input.Fits .oneBlock True fun _ => True) [0xFF, 0xFF] writeMiss
    (fun s : Cache .oneBlock => s.firstBlk.isValid = true ∧
      ∀ e ∈ s.store.log, e.isAllocated = false) (by decide) (by decide +kernel)
  refine ⟨s, hvalid, (tag_store_identity hs fun pkt hpkt => ?_).2.2 0 _ hvalid⟩
  exact Bool.noConfusion (hnone _ hpkt)

/-- A secure writeback from above that misses gets a block that is not secure. -/
theorem secure_writeback_loses_security : ∃ s : Cache .secondLevel,
    Cache.Reachable (Input.Fits .secondLevel True fun _ => True) s ∧
    s.firstBlk.isValid = true ∧ s.firstBlk.sources = [⟨1, 0, true⟩] ∧
    s.firstBlk.line .secondLevel 0 = ⟨1, 0, false⟩ :=
  Cache.exists_reachable [0xFF, 0xFF]
    [.timingReq { Packet.ofRequest { fourBytes 0 with secure := true } .Writeback with
      data := some [9, 9, 9, 9] }]
    (fun s : Cache .secondLevel => s.firstBlk.isValid = true ∧
      s.firstBlk.sources = [⟨1, 0, true⟩] ∧ s.firstBlk.line .secondLevel 0 = ⟨1, 0, false⟩)
    (by decide) (by decide +kernel)

/-! ## Write-outs -/

/-- The packet has the line of every packet that brought the data of the block in. -/
def Identifies (pkt : Packet) (blk : CacheBlk) : Prop :=
  blk.sources ≠ [] ∧ ∀ src ∈ blk.sources, src = ⟨pkt.guestID, pkt.addr, pkt.isSecure⟩

/-- The guest of a request that was made without a QoS tag. -/
def untaggedGuest : GuestID := qosTagToGuestID Request.defaultQosTag

/-- A write-out has the bytes and the line of the block. -/
def Event.WritesOut : Event → Prop
  | .change .writeback before _ handed =>
    ∃ pkt, handed = some pkt ∧ pkt.data = some before.data ∧ Identifies pkt before
  | .change .flush before _ handed =>
    ∃ pkt, handed = some pkt ∧ pkt.data = some before.data ∧
      (Identifies pkt before ↔ before.guestID = untaggedGuest ∧ before.isSecure = false)
  | _ => True

namespace IdentityLemmas

variable {s : Store cfg} {p : BlkPtr cfg.assoc}

theorem writebackPkt_identifies (hnamed : s.Named) (hvalid : (s.blk p).isValid = true) :
    Identifies ((s.blk p).writebackPkt cfg (s.setOf p)) (s.blk p) :=
  hnamed.sources p hvalid

theorem flushPkt_identifies (hnamed : s.Named) (hvalid : (s.blk p).isValid = true) :
    Identifies ((s.blk p).flushPkt cfg (s.setOf p)) (s.blk p) ↔
      (s.blk p).guestID = untaggedGuest ∧ (s.blk p).isSecure = false := by
  obtain ⟨hsome, hsources⟩ := hnamed.sources p hvalid
  constructor
  · rintro ⟨_, hflush⟩
    obtain ⟨src, hsrc⟩ := List.exists_mem_of_ne_nil _ hsome
    have hline := (hsources src hsrc).symm.trans (hflush src hsrc)
    exact ⟨congrArg Line.guest hline, congrArg Line.secure hline⟩
  · rintro ⟨hguest, hsecure⟩
    refine ⟨hsome, fun src hsrc => (hsources src hsrc).trans ?_⟩
    show Line.mk (s.blk p).guestID _ (s.blk p).isSecure = Line.mk untaggedGuest _ false
    rw [hguest, hsecure]
    rfl

theorem writesOut_new {G : GuestID → Prop} {e : Event} (hnamed : s.Named)
    (h : NewEvent True G s e) : e.WritesOut := by
  cases h with
  | plain he =>
    cases e with
    | change => exact Bool.noConfusion he
    | _ => trivial
  | victim | insert | allocated | replaced => trivial
  | change h =>
    cases h with
    | writeback hvalid => exact ⟨_, rfl, rfl, writebackPkt_identifies hnamed hvalid⟩
    | flush hvalid => exact ⟨_, rfl, rfl, flushPkt_identifies hnamed hvalid⟩
    | _ => trivial
  | gone h =>
    cases h with
    | _ => trivial

end IdentityLemmas

/-- In every such run every write-out of a dirty block is sent, with its bytes and under the line of
the packets that brought them; one by `writebackVisitor` has that line exactly when the block is not
secure and belongs to the guest of a request without a tag. -/
theorem write_out_identity {s : Cache cfg}
    (h : Cache.Reachable (Input.Fits cfg True fun _ => True) s)
    (hplain : s.store.NoSecureAllocated) :
    ∀ e ∈ s.store.log, e.WritesOut ∧
      ∀ c, e.cargo = some c → ∃ sent ∈ s.store.log, sent.Sends c := by
  obtain ⟨_, waymasks, hpath⟩ := h.proper
  have hwritten : ∀ e ∈ s.store.log, e.WritesOut := by
    refine (hpath.log_forall_while (I := fun t => t.Clean ∧ t.Named)
      ?_ ?_ ?_ hplain
      ⟨clean_initial waymasks, named_initial waymasks⟩ ?_).2
    · exact fun t t' hstep => NoSecureAllocated.of_steps (.single hstep)
    · rintro t t' ⟨hclean, hnamed⟩ hstep hnone
      exact ⟨hclean.micro hstep, hnamed.steps hclean (.single hstep) hnone⟩
    · exact fun t e ht hnew => writesOut_new ht.2 hnew
    · exact fun e he => absurd he List.not_mem_nil
  exact fun e he => ⟨hwritten e he, h.settled e he⟩

def Event.writesBackGuest1 : Event → Bool
  | .change .writeback before _ _ => before.guestID == 1
  | _ => false

theorem write_out_identity_eviction : ∃ s : Cache .oneBlock,
    (∃ e ∈ s.store.log, e.writesBackGuest1 = true) ∧
    ∀ e ∈ s.store.log, e.WritesOut ∧
      ∀ c, e.cargo = some c → ∃ sent ∈ s.store.log, sent.Sends c := by
  obtain ⟨s, hs, hwrites, hnone⟩ := Cache.exists_reachable
    (P := Input.Fits .oneBlock True fun _ => True) [0xFF, 0xFF]
    (secondMiss ++ [.timingResp 0 { cmd := .ReadResp, data := some [1, 2, 3, 4] } fun _ => {}])
    (fun s : Cache .oneBlock => (∃ e ∈ s.store.log, e.writesBackGuest1 = true) ∧
      ∀ e ∈ s.store.log, e.isAllocated = false) (by decide) (by decide +kernel)
  refine ⟨s, hwrites, write_out_identity hs fun pkt hpkt => ?_⟩
  exact Bool.noConfusion (hnone _ hpkt)

def Event.flushesForeign : Event → Bool
  | .change .flush before _ (some pkt) =>
    !before.sources.isEmpty && before.sources.all (·.guest == 1) && pkt.guestID == 0xFF
  | _ => false

/-- `memWriteback` writes the dirty block of guest 1 out under guest 255. -/
theorem flush_loses_guest : ∃ s : Cache .oneBlock,
    Cache.Reachable (Input.Fits .oneBlock True fun _ => True) s ∧
    ∃ e ∈ s.store.log, e.flushesForeign = true :=
  Cache.exists_reachable [0xFF, 0xFF] (writeMiss ++ [.memWriteback])
    (fun s : Cache .oneBlock => ∃ e ∈ s.store.log, e.flushesForeign = true)
    (by decide) (by decide +kernel)

end PardG5V
