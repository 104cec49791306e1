import PardG5V.Cache.StorePath

/-!
# Invariants of the blocks

`Micro.effect` says what one small step can do to the blocks: it changes one block at most, in one
of the ways that `NewBlk` lists. The invariants are proved from that.
-/

namespace PardG5V

open Prog CacheBlk

variable {cfg : CacheConfig} {wf : Prop} {G : GuestID → Prop} {s s' : Store cfg}

/-- A block that is not valid is neither secure nor dirty. -/
def Store.Clean (s : Store cfg) : Prop :=
  ∀ p, (s.blk p).isValid = false → (s.blk p).isSecure = false ∧ (s.blk p).isDirty = false

/-! ## What a small step does -/

structure Untouched (s s' : Store cfg) (p : BlkPtr cfg.assoc) : Prop where
  kept : (s.blk p).Kept (s'.blk p)
  sources : (s'.blk p).sources = (s.blk p).sources
  dirty : (s'.blk p).isDirty = (s.blk p).isDirty
  setOf : s'.setOf p = s.setOf p

/-- The block is valid and stands for the line of the packet. -/
def Holds (s : Store cfg) (p : BlkPtr cfg.assoc) (pkt : Packet) : Prop :=
  (s.blk p).isValid = true ∧ (s.blk p).line cfg (s.setOf p) = pkt.line cfg

/-- What the block `p` can be after one small step. -/
inductive NewBlk (wf : Prop) (G : GuestID → Prop) (s s' : Store cfg) (p : BlkPtr cfg.assoc) : Prop
  | kept (hkept : (s.blk p).Kept (s'.blk p)) (hsources : (s'.blk p).sources = (s.blk p).sources)
      (hdirty : (s.blk p).isValid = true ∨ (s'.blk p).isDirty = (s.blk p).isDirty)
      (hset : s'.setOf p = s.setOf p)
  | written (pkt : Packet) (hvalid : (s.blk p).isValid = true) (hkept : (s.blk p).Kept (s'.blk p))
      (hsources : (s'.blk p).sources = pkt.line cfg :: (s.blk p).sources)
      (hfits : wf → Fits s p pkt) (hset : s'.setOf p = s.setOf p)
  | gone (hinvalid : (s'.blk p).isValid = false) (hsecure : (s'.blk p).isSecure = false)
      (hdirty : (s'.blk p).isDirty = false)
  | filled (pkt : Packet) (hvalid : (s'.blk p).isValid = true) (hG : G pkt.guestID)
      (hguest : (s'.blk p).guestID = pkt.guestID)
      (hline : wf → s.Clean → (.allocated pkt ∈ s'.log → pkt.isSecure = false) →
        (s'.blk p).line cfg (s'.setOf p) = pkt.line cfg)
      (hsources : (s'.blk p).sources = [pkt.line cfg] ∨
        (s'.blk p).sources = (s.blk p).sources ∧ (wf → Holds s p pkt))
      (hplace : wf → Holds s p pkt ∧ (s'.blk p).tag = (s.blk p).tag ∨ p = .temp ∨
        ∃ w, p = .way (cfg.extractSet pkt.addr) w ∧ (s'.blk p).tag = cfg.extractTag pkt.addr ∧
          s.tags.findBlock pkt.guestID pkt.addr pkt.isSecure = none)

section Effect

variable {p q : BlkPtr cfg.assoc} {after blk filled : CacheBlk}

theorem Untouched.refl_of_eq (hblk : s'.blk p = s.blk p) (hset : s'.setOf p = s.setOf p) :
    Untouched s s' p := by
  refine ⟨?_, ?_, ?_, hset⟩
  · rw [hblk]
    exact .refl
  · rw [hblk]
  · rw [hblk]

variable {handed : Option Packet} {site : Site}

theorem untouched_changed (h : q ≠ p) : Untouched s (s.changed site p after handed) q := by
  refine .refl_of_eq ?_ (Store.setOf_changed _ _ _ _ _ _)
  rw [Store.blk_changed, if_neg h]

theorem Untouched.newBlk (h : Untouched s s' p) : NewBlk wf G s s' p :=
  .kept h.kept h.sources (.inr h.dirty) h.setOf

theorem blk_changed_self (site : Site) (after : CacheBlk) (handed : Option Packet) :
    (s.changed site p after handed).blk p = after := by
  rw [Store.blk_changed, if_pos rfl]

variable {pkt : Packet} {w : Fin cfg.assoc}

theorem holds_of_findBlock (h : s.tags.findBlock pkt.guestID pkt.addr pkt.isSecure = some w) :
    Holds s (.way (cfg.extractSet pkt.addr) w) pkt :=
  LRU.findBlock_line h

/-- A filled block stands for the line of the packet, if it had the packet's tag and
no other security bit before. -/
theorem line_filled {set : Nat} (hfill : FillSpec cfg blk pkt filled)
    (haddr : cfg.regenerateBlkAddr blk.tag set = cfg.blkAlign pkt.addr)
    (hsecure : blk.isSecure = true → pkt.isSecure = true) :
    filled.line cfg set = pkt.line cfg := by
  have hsec : filled.isSecure = pkt.isSecure := by
    rw [hfill.secure]
    cases hblk : blk.isSecure with
    | false => rfl
    | true => exact (hsecure hblk).symm
  unfold CacheBlk.line Packet.line
  rw [hfill.guest, hfill.tag, haddr, hsec]

theorem newBlk_kept (hkept : (s.blk p).Kept after) (hsources : after.sources = (s.blk p).sources)
    (hdirty : (s.blk p).isValid = true ∨ after.isDirty = (s.blk p).isDirty) :
    NewBlk wf G s (s.changed site p after handed) p := by
  refine .kept ?_ ?_ ?_ (Store.setOf_changed _ _ _ _ _ _)
  · rw [blk_changed_self]
    exact hkept
  · rw [blk_changed_self]
    exact hsources
  · rw [blk_changed_self]
    exact hdirty

variable {now : Tick}

theorem refill_holds (hholds : Holds s p pkt) (hfill : (s.blk p).fill cfg pkt now = .ok filled) :
    Holds (s.changed site p filled handed) p pkt := by
  have hspec := fill_spec hfill
  obtain ⟨_, haddr, hsecure⟩ := Line.mk.inj hholds.2
  unfold Holds
  rw [blk_changed_self, Store.setOf_changed]
  exact ⟨hspec.valid, line_filled hspec haddr fun hs => hsecure ▸ hs⟩

theorem newBlk_refill
    (hholds : wf → Holds s p pkt) (hfill : (s.blk p).fill cfg pkt now = .ok filled)
    (hG : G pkt.guestID) : NewBlk wf G s (s.changed site p filled handed) p := by
  have hspec := fill_spec hfill
  refine .filled pkt ?_ hG ?_ (fun hwf _ _ => ?_) ?_ fun hwf => .inl ⟨hholds hwf, ?_⟩
  · rw [blk_changed_self]
    exact hspec.valid
  · rw [blk_changed_self]
    exact hspec.guest
  · exact (refill_holds (hholds hwf) hfill).2
  · rw [blk_changed_self, hspec.sources]
    split
    · exact .inl rfl
    · exact .inr ⟨rfl, hholds⟩
  · rw [blk_changed_self]
    exact hspec.tag

theorem newBlk_rewrite {taken : CacheBlk}
    (hholds : Holds s p pkt) (htake : (s.blk p).takeWriteback cfg pkt = .ok taken)
    (hG : G pkt.guestID) : NewBlk wf G s (s.changed site p taken handed) p := by
  obtain ⟨htag, hguest, hvalid, hsecure, _, hsources⟩ := takeWriteback_spec htake
  obtain ⟨hv, hline⟩ := hholds
  refine .filled pkt ?_ hG ?_ (fun hwf _ _ => ?_) ?_ fun _ => .inl ⟨⟨hv, hline⟩, ?_⟩
  · rw [blk_changed_self, hvalid]
    exact hv
  · rw [blk_changed_self]
    exact hguest
  · rw [blk_changed_self, Store.setOf_changed]
    obtain ⟨_, haddr, hsec⟩ := Line.mk.inj hline
    unfold CacheBlk.line Packet.line
    rw [hguest, htag, hsecure, haddr, hsec]
  · rw [blk_changed_self]
    exact .inl hsources
  · rw [blk_changed_self]
    exact htag

theorem newBlk_change (h : BlkChange wf G s p site after handed) :
    NewBlk wf G s (s.changed site p after handed) p := by
  cases h with
  | request hserve _ hfits =>
    have hspec := serve_spec hserve
    rcases hspec.sources with hsame | hwritten
    · exact newBlk_kept hspec.kept hsame (.inl hspec.valid)
    · refine .written _ hspec.valid ?_ ?_ hfits (Store.setOf_changed _ _ _ _ _ _)
      · rw [blk_changed_self]
        exact hspec.kept
      · rw [blk_changed_self]
        exact hwritten
  | snoop hsnoop hvalid _ =>
    have hspec := snoop_spec hsnoop
    exact newBlk_kept hspec.kept hspec.sources (.inl hvalid)
  | writeback hvalid _ => exact newBlk_kept .writtenBack rfl (.inl hvalid)
  | flush hvalid _ => exact newBlk_kept ⟨rfl, rfl, rfl, rfl⟩ rfl (.inl hvalid)
  | hide | downgrade | prefetched => exact newBlk_kept ⟨rfl, rfl, rfl, rfl⟩ rfl (.inr rfl)
  | refill hhit hfill hG =>
    refine newBlk_refill (fun hwf => ?_) hfill hG
    obtain ⟨w, rfl, hfind⟩ := hhit hwf
    exact holds_of_findBlock hfind
  | rewrite hp hhit htake hG =>
    subst hp
    exact newBlk_rewrite (holds_of_findBlock hhit) htake hG
  | dropTemp hp _ =>
    refine .gone ?_ ?_ ?_
    · rw [blk_changed_self]
      rfl
    · rw [blk_changed_self]
      rfl
    · rw [blk_changed_self]
      rfl

theorem untouched_touch {guest : GuestID} {addr : Addr} {isSecure : Bool} (q : BlkPtr cfg.assoc) :
    Untouched s { s with tags := (s.tags.accessBlock guest addr isSecure now).1 } q := by
  cases q with
  | temp => exact .refl_of_eq rfl rfl
  | way set w =>
    obtain ⟨n, hn⟩ := LRU.accessBlock_blks s.tags guest addr isSecure now set w
    refine ⟨?_, ?_, ?_, rfl⟩
    · rw [← Store.tags_blks, ← Store.tags_blks, hn]
      exact ⟨rfl, rfl, rfl, rfl⟩
    · rw [← Store.tags_blks, ← Store.tags_blks, hn]
    · rw [← Store.tags_blks, ← Store.tags_blks, hn]
      rfl

theorem takeOut_effect (h : StoreM.takeOut site p blk handed s = .ok ((), s')) :
    (∀ q, q ≠ p → Untouched s s' q) ∧ NewBlk wf G s s' p := by
  obtain ⟨tags, blk', hblks, _, rfl, _⟩ := takeOut_cases h
  refine ⟨fun q hq => .refl_of_eq ?_ ?_, .gone ?_ ?_ ?_⟩
  · rw [Store.blk_changed, if_neg hq, Store.blk_withTags hblks]
  · rw [Store.setOf_changed]
    cases q with
    | way set w | temp => rfl
  · rw [blk_changed_self]
    rfl
  · rw [blk_changed_self]
    rfl
  · rw [blk_changed_self]
    rfl

/-- A new block stands for the line of the response that fills it: an old security
bit could only come from a block that was not valid. -/
theorem fillNew_holds (hclean : s.Clean)
    (h : fillNew pkt w now s = .ok ((), s')) : Holds s' (.way (cfg.extractSet pkt.addr) w) pkt := by
  obtain ⟨tags, blk, filled, hins, hfill, rfl, _⟩ := fillNew_cases h
  obtain ⟨_, _, _, htag, hsecure, _⟩ := LRU.insertBlock_spec hins
  have hspec := fill_spec hfill
  unfold Holds
  rw [blk_changed_self]
  refine ⟨hspec.valid, line_filled hspec ?_ fun hs => ?_⟩
  · rw [htag]
    exact cfg.regenerateBlkAddr_extract pkt.addr
  · rw [hsecure, Bool.or_eq_true, Bool.and_eq_true, Bool.not_eq_true'] at hs
    rcases hs with ⟨hinvalid, hs⟩ | hs
    · rw [(hclean _ hinvalid).1] at hs
      exact Bool.noConfusion hs
    · exact hs

theorem fillNew_effect (hroom : Room wf s pkt w)
    (hread : pkt.isRead = true) (hG : G pkt.guestID) (h : fillNew pkt w now s = .ok ((), s')) :
    (∀ q, q ≠ .way (cfg.extractSet pkt.addr) w → Untouched s s' q) ∧
      NewBlk wf G s s' (.way (cfg.extractSet pkt.addr) w) := by
  have hline := fun hclean => (fillNew_holds hclean h).2
  obtain ⟨tags, blk, filled, hins, hfill, rfl, _⟩ := fillNew_cases h
  obtain ⟨hblks, _, _, htag, _, _⟩ := LRU.insertBlock_spec hins
  have hspec := fill_spec hfill
  refine ⟨fun q hq => .refl_of_eq ?_ ?_,
    .filled pkt ?_ hG ?_ (fun _ hclean _ => hline hclean) ?_ fun hwf =>
      .inr (.inr ⟨w, rfl, ?_, hroom.miss hwf⟩)⟩
  · rw [Store.blk_changed, if_neg hq, blk_inserted_of_ne hblks hq]
  · rw [Store.setOf_changed, setOf_inserted]
  · rw [blk_changed_self]
    exact hspec.valid
  · rw [blk_changed_self]
    exact hspec.guest
  · rw [blk_changed_self, hspec.sources, if_pos hread]
    exact .inl rfl
  · rw [blk_changed_self, hspec.tag]
    exact htag

theorem writebackNew_effect (hroom : Room wf s pkt w)
    (hG : G pkt.guestID) (h : writebackNew pkt w s = .ok ((), s')) :
    (∀ q, q ≠ .way (cfg.extractSet pkt.addr) w → Untouched s s' q) ∧
      NewBlk wf G s s' (.way (cfg.extractSet pkt.addr) w) := by
  obtain ⟨tags, blk, taken, hins, htake, rfl, hlog⟩ := writebackNew_cases h
  obtain ⟨hblks, _, _, htag, _, _⟩ := LRU.insertBlock_spec hins
  obtain ⟨htag', hguest, hvalid, hsecure, _, hsources⟩ := takeWriteback_spec htake
  refine ⟨fun q hq => .refl_of_eq ?_ ?_,
    .filled pkt ?_ hG ?_ (fun _ _ hallocated => ?_) ?_ fun hwf =>
      .inr (.inr ⟨w, rfl, ?_, hroom.miss hwf⟩)⟩
  · rw [Store.blk_changed, if_neg hq, opened, Store.blk_changed, if_neg hq, Store.blk_record,
      blk_inserted_of_ne hblks hq]
  · rw [Store.setOf_changed, opened, Store.setOf_changed, Store.setOf_record, setOf_inserted]
  · rw [blk_changed_self, hvalid]
    rfl
  · rw [blk_changed_self]
    exact hguest
  · -- the new block is never secure
    have hplain : pkt.isSecure = false := by
      apply hallocated
      rw [hlog]
      exact List.mem_cons_of_mem _ (List.mem_cons_of_mem _ List.mem_cons_self)
    rw [blk_changed_self]
    unfold CacheBlk.line Packet.line
    rw [hguest, htag', hsecure, hplain, htag]
    exact congrArg (Line.mk _ · _) (cfg.regenerateBlkAddr_extract pkt.addr)
  · rw [blk_changed_self]
    exact .inl hsources
  · rw [blk_changed_self, htag']
    exact htag

theorem fillTemp_holds (hclean : s.Clean)
    (h : fillTemp pkt now s = .ok ((), s')) : Holds s' .temp pkt := by
  obtain ⟨filled, hinvalid, hfill, rfl, _⟩ := fillTemp_cases h
  have hspec := fill_spec hfill
  unfold Holds
  rw [blk_changed_self, Store.setOf_changed, Store.setOf_changed]
  refine ⟨hspec.valid, line_filled hspec (cfg.regenerateBlkAddr_extract pkt.addr) fun hs => ?_⟩
  have hplain : (tempFor s pkt).isSecure = false := (hclean .temp hinvalid).1
  rw [hplain] at hs
  exact Bool.noConfusion hs

theorem fillTemp_effect (hread : pkt.isRead = true)
    (hG : G pkt.guestID) (h : fillTemp pkt now s = .ok ((), s')) :
    (∀ q, q ≠ .temp → Untouched s s' q) ∧ NewBlk wf G s s' .temp := by
  have hline := fun hclean => (fillTemp_holds hclean h).2
  obtain ⟨filled, hinvalid, hfill, rfl, _⟩ := fillTemp_cases h
  have hspec := fill_spec hfill
  refine ⟨fun q hq => .refl_of_eq ?_ ?_,
    .filled pkt ?_ hG ?_ (fun _ hclean _ => hline hclean) ?_ fun _ => .inr (.inl rfl)⟩
  · rw [Store.blk_changed, if_neg hq, Store.blk_changed, if_neg hq]
    cases q with
    | way set w => rfl
    | temp => exact absurd rfl hq
  · rw [Store.setOf_changed, Store.setOf_changed]
    cases q with
    | way set w => rfl
    | temp => exact absurd rfl hq
  · rw [blk_changed_self]
    exact hspec.valid
  · rw [blk_changed_self]
    exact hspec.guest
  · rw [blk_changed_self, hspec.sources, if_pos hread]
    exact .inl rfl

/-- A small step changes one block at most, in one of the ways of `NewBlk`. -/
theorem Micro.effect (h : Micro wf G s s') :
    ∃ p, (∀ q, q ≠ p → Untouched s s' q) ∧ NewBlk wf G s s' p := by
  have hall : ∀ {t : Store cfg}, (∀ q, Untouched s t q) →
      ∃ p, (∀ q, q ≠ p → Untouched s t q) ∧ NewBlk wf G s t p :=
    fun h => ⟨.temp, fun q _ => h q, (h .temp).newBlk⟩
  cases h with
  | plain e _ | victim _ =>
    exact hall fun q => .refl_of_eq (Store.blk_record _ _ _) (Store.setOf_record _ _ _)
  | touch guest addr isSecure now => exact hall fun q => untouched_touch q
  | locks =>
    refine hall fun q => ?_
    cases q with
    | way set w => exact ⟨⟨rfl, rfl, rfl, rfl⟩, rfl, rfl, rfl⟩
    | temp => exact .refl_of_eq rfl rfl
  | program waymasks =>
    refine hall fun q => ?_
    cases q with
    | way set w | temp => exact .refl_of_eq rfl rfl
  | change h => exact ⟨_, fun q hq => untouched_changed hq, newBlk_change h⟩
  | takeOut _ hrun => exact ⟨_, takeOut_effect hrun⟩
  | fillNew hroom hread hG hrun => exact ⟨_, fillNew_effect hroom hread hG hrun⟩
  | writebackNew hroom hG hrun => exact ⟨_, writebackNew_effect hroom hG hrun⟩
  | fillTemp hread hG hrun => exact ⟨_, fillTemp_effect hread hG hrun⟩

end Effect

/-! ## The invariants -/

section Invariants

open Relation

theorem clean_initial (waymasks : List (BitVec 64)) : (Store.initial cfg waymasks).Clean := by
  intro p _
  cases p with
  | way set w | temp => exact ⟨rfl, rfl⟩

theorem Untouched.clean {p : BlkPtr cfg.assoc} (h : Untouched s s' p) (hclean : s.Clean)
    (hinvalid : (s'.blk p).isValid = false) :
    (s'.blk p).isSecure = false ∧ (s'.blk p).isDirty = false := by
  rw [h.kept.secure, h.dirty]
  exact hclean p (h.kept.valid ▸ hinvalid)

theorem Store.Clean.micro (hclean : s.Clean) (h : Micro wf G s s') : s'.Clean := by
  obtain ⟨p, hothers, hnew⟩ := h.effect
  intro q hinvalid
  by_cases hq : q = p
  · subst hq
    cases hnew with
    | kept hkept _ hdirty _ =>
      rw [hkept.valid] at hinvalid
      obtain ⟨hsec, hdir⟩ := hclean q hinvalid
      rcases hdirty with hvalid | hdirty
      · rw [hvalid] at hinvalid
        exact Bool.noConfusion hinvalid
      · exact ⟨hkept.secure.trans hsec, hdirty.trans hdir⟩
    | written _ hvalid hkept _ _ _ =>
      rw [hkept.valid, hvalid] at hinvalid
      exact Bool.noConfusion hinvalid
    | gone _ hsecure hdirty => exact ⟨hsecure, hdirty⟩
    | filled _ hvalid _ _ _ _ _ =>
      rw [hvalid] at hinvalid
      exact Bool.noConfusion hinvalid
  · exact (hothers q hq).clean hclean hinvalid

theorem Store.Clean.steps (hclean : s.Clean) (h : MicroSteps wf G s s') : s'.Clean := by
  induction h with
  | refl => exact hclean
  | tail _ hstep ih => exact ih.micro hstep

/-- The guests of the valid blocks satisfy `G`. -/
def Store.Guests (G : GuestID → Prop) (s : Store cfg) : Prop :=
  ∀ p, (s.blk p).isValid = true → G (s.blk p).guestID

theorem Store.Guests.micro (hguests : s.Guests G) (h : Micro wf G s s') : s'.Guests G := by
  obtain ⟨p, hothers, hnew⟩ := h.effect
  intro q hvalid
  by_cases hq : q = p
  · subst hq
    cases hnew with
    | kept hkept _ _ _ =>
      rw [hkept.guestID]
      exact hguests q (hkept.valid ▸ hvalid)
    | written _ hold hkept _ _ _ =>
      rw [hkept.guestID]
      exact hguests q hold
    | gone hinvalid _ _ =>
      rw [hinvalid] at hvalid
      exact Bool.noConfusion hvalid
    | filled pkt _ hG hguest _ _ _ =>
      rw [hguest]
      exact hG
  · have hsame := hothers q hq
    rw [hsame.kept.guestID]
    exact hguests q (hsame.kept.valid ▸ hvalid)

/-- A valid block stands for the line of all the data in it, and no other block of
its set does. -/
structure Store.Named (s : Store cfg) : Prop where
  sources : ∀ p, (s.blk p).isValid = true → (s.blk p).sources ≠ [] ∧
    ∀ src ∈ (s.blk p).sources, src = (s.blk p).line cfg (s.setOf p)
  unique : ∀ set v w, (s.blk (.way set v)).isValid = true → (s.blk (.way set w)).isValid = true →
    (s.blk (.way set v)).guestID = (s.blk (.way set w)).guestID →
    (s.blk (.way set v)).tag = (s.blk (.way set w)).tag →
    (s.blk (.way set v)).isSecure = (s.blk (.way set w)).isSecure → v = w

theorem named_initial (waymasks : List (BitVec 64)) : (Store.initial cfg waymasks).Named := by
  refine ⟨fun p hvalid => ?_, fun set v w hvalid => ?_⟩
  · cases p with
    | way set w | temp => exact Bool.noConfusion hvalid
  · exact Bool.noConfusion hvalid

/-- No secure writeback from above was given a new block. -/
def Store.NoSecureAllocated (s : Store cfg) : Prop :=
  ∀ pkt, .allocated pkt ∈ s.log → pkt.isSecure = false

section NamedStep

variable (hnamed : s.Named) (hclean : s.Clean) (hplain : s'.NoSecureAllocated)

include hnamed in
theorem Untouched.sources_named {q : BlkPtr cfg.assoc} (h : Untouched s s' q)
    (hvalid : (s'.blk q).isValid = true) :
    (s'.blk q).sources ≠ [] ∧ ∀ src ∈ (s'.blk q).sources,
      src = (s'.blk q).line cfg (s'.setOf q) := by
  rw [h.sources, h.setOf, h.kept.line]
  exact hnamed.sources q (h.kept.valid ▸ hvalid)

include hnamed hclean hplain in
theorem NewBlk.sources_named {p : BlkPtr cfg.assoc} (h : NewBlk True G s s' p)
    (hvalid : (s'.blk p).isValid = true) :
    (s'.blk p).sources ≠ [] ∧ ∀ src ∈ (s'.blk p).sources,
      src = (s'.blk p).line cfg (s'.setOf p) := by
  cases h with
  | kept hkept hsources _ hset =>
    rw [hsources, hset, hkept.line]
    exact hnamed.sources p (hkept.valid ▸ hvalid)
  | written pkt hold hkept hsources hfits hset =>
    rw [hsources, hset, hkept.line]
    refine ⟨List.cons_ne_nil _ _, fun src hsrc => ?_⟩
    rcases List.mem_cons.mp hsrc with rfl | hsrc
    · exact (hfits trivial).line.symm
    · exact (hnamed.sources p hold).2 src hsrc
  | gone hinvalid _ _ =>
    rw [hinvalid] at hvalid
    exact Bool.noConfusion hvalid
  | filled pkt _ _ _ hline hsources _ =>
    rw [hline trivial hclean (hplain pkt)]
    rcases hsources with hsources | ⟨hsources, hholds⟩
    · rw [hsources]
      exact ⟨List.cons_ne_nil _ _, fun src hsrc => List.mem_singleton.mp hsrc⟩
    · rw [hsources]
      obtain ⟨hold, holdLine⟩ := hholds trivial
      rw [← holdLine]
      exact hnamed.sources p hold

structure Keyed (s s' : Store cfg) (q : BlkPtr cfg.assoc) : Prop where
  valid : (s.blk q).isValid = true
  guest : (s'.blk q).guestID = (s.blk q).guestID
  tag : (s'.blk q).tag = (s.blk q).tag
  secure : (s'.blk q).isSecure = (s.blk q).isSecure

theorem Keyed.of_kept {q : BlkPtr cfg.assoc} (h : (s.blk q).Kept (s'.blk q))
    (hvalid : (s'.blk q).isValid = true) : Keyed s s' q :=
  ⟨h.valid ▸ hvalid, h.guestID, h.tag, h.secure⟩

include hclean hplain in
/-- A valid block is looked up as before, or it is new and was not in its set. -/
theorem NewBlk.keyed_or_new {set : Nat} {w : Fin cfg.assoc} (h : NewBlk True G s s' (.way set w))
    (hvalid : (s'.blk (.way set w)).isValid = true) :
    Keyed s s' (.way set w) ∨ ∀ v, LRU.hits (s.blk (.way set v)) (s'.blk (.way set w)).guestID
      (s'.blk (.way set w)).tag (s'.blk (.way set w)).isSecure = false := by
  cases h with
  | kept hkept _ _ _ | written _ _ hkept _ _ _ => exact .inl (.of_kept hkept hvalid)
  | gone hinvalid _ _ =>
    rw [hinvalid] at hvalid
    exact Bool.noConfusion hvalid
  | filled pkt _ _ hguest hline _ hplace =>
    obtain ⟨_, _, hsecure⟩ := Line.mk.inj (hline trivial hclean (hplain pkt))
    rcases hplace trivial with ⟨⟨hold, holdLine⟩, htag⟩ | htemp | ⟨v, hv, htag, hmiss⟩
    · obtain ⟨holdGuest, _, holdSecure⟩ := Line.mk.inj holdLine
      exact .inl ⟨hold, hguest.trans holdGuest.symm, htag, hsecure.trans holdSecure.symm⟩
    · exact absurd htemp (by simp)
    · obtain ⟨rfl, rfl⟩ := BlkPtr.way.inj hv
      rw [hguest, htag, hsecure]
      exact .inr (LRU.findWay_none hmiss)

include hnamed hclean hplain in
theorem Store.Named.micro (h : Micro True G s s') : s'.Named := by
  obtain ⟨p, hothers, hnew⟩ := h.effect
  refine ⟨fun q hvalid => ?_, fun set v w hv hw hguest htag hsecure => ?_⟩
  · by_cases hq : q = p
    · subst hq
      exact hnew.sources_named hnamed hclean hplain hvalid
    · exact (hothers q hq).sources_named hnamed hvalid
  · by_contra hne
    -- a block other than the changed one is looked up as before
    have hother : ∀ u, BlkPtr.way set u ≠ p → (s'.blk (.way set u)).isValid = true →
        Keyed s s' (.way set u) := fun u hu => .of_kept (hothers _ hu).kept
    -- two blocks that are looked up as before are told apart as before
    have hkeyed : ¬ (Keyed s s' (.way set v) ∧ Keyed s s' (.way set w)) := by
      rintro ⟨kv, kw⟩
      refine hne (hnamed.unique set v w kv.valid kw.valid ?_ ?_ ?_)
      · rw [← kv.guest, ← kw.guest, hguest]
      · rw [← kv.tag, ← kw.tag, htag]
      · rw [← kv.secure, ← kw.secure, hsecure]
    by_cases hpv : BlkPtr.way set v = p
    · have kw := hother w (fun hpw => hne (BlkPtr.way.inj (hpv.trans hpw.symm)).2) hw
      subst hpv
      rcases hnew.keyed_or_new hclean hplain hv with kv | hmiss
      · exact hkeyed ⟨kv, kw⟩
      · have hno := hmiss w
        rw [hguest, htag, hsecure, kw.guest, kw.tag, kw.secure] at hno
        rw [LRU.hits_iff.mpr ⟨rfl, kw.valid, rfl, rfl⟩] at hno
        exact Bool.noConfusion hno
    · have kv := hother v hpv hv
      by_cases hpw : BlkPtr.way set w = p
      · subst hpw
        rcases hnew.keyed_or_new hclean hplain hw with kw | hmiss
        · exact hkeyed ⟨kv, kw⟩
        · have hno := hmiss v
          rw [← hguest, ← htag, ← hsecure, kv.guest, kv.tag, kv.secure] at hno
          rw [LRU.hits_iff.mpr ⟨rfl, kv.valid, rfl, rfl⟩] at hno
          exact Bool.noConfusion hno
      · exact hkeyed ⟨kv, hother w hpw hw⟩

end NamedStep

theorem NoSecureAllocated.of_steps (h : MicroSteps wf G s s') (hplain : s'.NoSecureAllocated) :
    s.NoSecureAllocated :=
  fun pkt hmem => hplain pkt ((MicroSteps.log_suffix h).mem hmem)

theorem Store.Named.steps (hnamed : s.Named) (hclean : s.Clean) (h : MicroSteps True G s s')
    (hplain : s'.NoSecureAllocated) : s'.Named := by
  induction h with
  | refl => exact hnamed
  | tail hsteps hstep ih =>
    have hmid := NoSecureAllocated.of_steps (.single hstep) hplain
    exact (ih hmid).micro (hclean.steps hsteps) hplain hstep

end Invariants

/-! ## The block that a fill leaves -/

theorem handleFill_holds {mq : MSHRQueue} {pkt : Packet} {hit : Option (BlkPtr cfg.assoc)}
    {now : Tick} {p : BlkPtr cfg.assoc} {wbs : List Packet}
    (h : StoreM.handleFill mq pkt hit now s = .ok ((p, wbs), s')) (hhit : StoreM.HitOf s pkt hit)
    (hclean : s.Clean) : Holds s' p pkt := by
  have hmid : ∀ {r s₁}, StoreM.allocateBlock mq pkt.guestID pkt.addr s = .ok (r, s₁) → s₁.Clean :=
    fun halloc => hclean.steps (StoreM.allocateBlock_path halloc :
      MicroSteps True (fun _ => True) _ _)
  rcases StoreM.handleFill_cases h with ⟨rfl, _, filled, hfill, rfl⟩ |
    ⟨rfl, _, ⟨w, s₁, rfl, halloc, hnew⟩ | ⟨s₁, rfl, halloc, htemp⟩⟩
  · obtain ⟨w, rfl, hfind⟩ := hhit.some
    exact refill_holds (holds_of_findBlock hfind) hfill
  · exact fillNew_holds (hmid halloc) hnew
  · exact fillTemp_holds (hmid halloc) htemp

end PardG5V
