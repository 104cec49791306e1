import Mathlib.Logic.Relation
import PardG5V.Cache.Store

/-!
# Small steps of the block store

Everything the cache does to its blocks is a sequence of the small steps of `Micro`. A step says
what it does to the store and what the code has checked at that point. `wf` is the assumption that
the packets are well formed, so that a request is only served by the block of its own line, and
`G` holds of the guest of every packet that brings data in.
-/

namespace PardG5V

open Prog Relation

def Event.isPlain : Event → Bool
  | .victim .. | .insert .. | .allocated .. | .change .. => false
  | _ => true

def Event.isAllocated : Event → Bool
  | .allocated _ => true
  | _ => false

/-- The packet that carries a line away when it is served. -/
def handedBy (pkt : Packet) : Option Packet := if pkt.memInhibit then some pkt else none

section Steps

variable {cfg : CacheConfig}

structure Fits (s : Store cfg) (p : BlkPtr cfg.assoc) (pkt : Packet) : Prop where
  line : (s.blk p).line cfg (s.setOf p) = pkt.line cfg
  unshared : pkt.needsExclusive = true → pkt.shared = false

inductive BlkChange (wf : Prop) (G : GuestID → Prop) (s : Store cfg) (p : BlkPtr cfg.assoc) :
    Site → CacheBlk → Option Packet → Prop
  | request {pkt : Packet} {deferred downgrade : Bool} {served : CacheBlk.Served}
      (hserve : (s.blk p).serve cfg pkt deferred downgrade (p == .temp) = .ok served)
      (hkept : served.gaveUp = false) (hfits : wf → Fits s p pkt) :
      BlkChange wf G s p (.request pkt) served.blk (handedBy served.pkt)
  | snoop {pkt : Packet} {invalidate needsExclusive isTiming isDeferred pendingInval : Bool}
      {r : CacheBlk.Snooped}
      (hsnoop : (s.blk p).snoop cfg pkt invalidate needsExclusive isTiming isDeferred pendingInval
        = .ok r)
      (hvalid : (s.blk p).isValid = true) (hkept : r.gaveUp = false) :
      BlkChange wf G s p (.snoop pkt invalidate) r.blk r.response
  | writeback (hvalid : (s.blk p).isValid = true) (hdirty : (s.blk p).isDirty = true) :
      BlkChange wf G s p .writeback (s.blk p).writtenBack
        (some ((s.blk p).writebackPkt cfg (s.setOf p)))
  | flush (hvalid : (s.blk p).isValid = true) (hdirty : (s.blk p).isDirty = true) :
      BlkChange wf G s p .flush (s.blk p).clearDirty (some ((s.blk p).flushPkt cfg (s.setOf p)))
  | hide : BlkChange wf G s p .other (s.blk p).clearReadable none
  | downgrade : BlkChange wf G s p .other (s.blk p).clearWritable none
  | prefetched :
      BlkChange wf G s p .other
        { s.blk p with status := { (s.blk p).status with hwPrefetched := true } } none
  | refill {pkt : Packet} {now : Tick} {filled : CacheBlk}
      (hhit : wf → ∃ w, p = .way (cfg.extractSet pkt.addr) w ∧
        s.tags.findBlock pkt.guestID pkt.addr pkt.isSecure = some w)
      (hfill : (s.blk p).fill cfg pkt now = .ok filled) (hG : G pkt.guestID) :
      BlkChange wf G s p .other filled none
  | rewrite {pkt : Packet} {w : Fin cfg.assoc} {taken : CacheBlk}
      (hp : p = .way (cfg.extractSet pkt.addr) w)
      (hhit : s.tags.findBlock pkt.guestID pkt.addr pkt.isSecure = some w)
      (htake : (s.blk p).takeWriteback cfg pkt = .ok taken) (hG : G pkt.guestID) :
      BlkChange wf G s p .other taken none
  | dropTemp (hp : p = .temp) (hclean : (s.blk p).isValid = true → (s.blk p).isDirty = false) :
      BlkChange wf G s p .other (s.blk p).invalidate none

/-- The reasons for which the cache gives a block up. -/
inductive BlkGone (wf : Prop) (s : Store cfg) (p : BlkPtr cfg.assoc) :
    Site → CacheBlk → Option Packet → Prop
  | request {pkt : Packet} {deferred downgrade : Bool} {served : CacheBlk.Served}
      (hserve : (s.blk p).serve cfg pkt deferred downgrade (p == .temp) = .ok served)
      (hgone : served.gaveUp = true) (hfits : wf → Fits s p pkt) :
      BlkGone wf s p (.request pkt) served.blk (handedBy served.pkt)
  | snoop {pkt : Packet} {invalidate needsExclusive isTiming isDeferred pendingInval : Bool}
      {r : CacheBlk.Snooped}
      (hsnoop : (s.blk p).snoop cfg pkt invalidate needsExclusive isTiming isDeferred pendingInval
        = .ok r)
      (hgone : r.gaveUp = true) :
      BlkGone wf s p (.snoop pkt invalidate) r.blk r.response
  | inhibited {pkt : Packet} : BlkGone wf s p (.inhibited pkt) (s.blk p) none
  | response {pkt : Packet} : BlkGone wf s p (.response pkt) (s.blk p) none
  | flushed (hclean : (s.blk p).isDirty = false) : BlkGone wf s p .other (s.blk p) none

/-- A new block of the tag store takes the data of a response. -/
def fillNew (pkt : Packet) (w : Fin cfg.assoc) (now : Tick) : StoreM cfg Unit := do
  StoreM.insertBlock pkt.guestID pkt w
  let s ← get
  let filled ← StoreM.check ((s.tags.blks (cfg.extractSet pkt.addr) w).fill cfg pkt now)
  StoreM.changeBlk .other (.way (cfg.extractSet pkt.addr) w) filled none

/-- A new block of the tag store takes a writeback from above. -/
def writebackNew (pkt : Packet) (w : Fin cfg.assoc) : StoreM cfg Unit := do
  StoreM.insertBlock pkt.guestID pkt w
  StoreM.emit (.allocated pkt)
  let s ← get
  StoreM.changeBlk .other (.way (cfg.extractSet pkt.addr) w)
    { s.tags.blks (cfg.extractSet pkt.addr) w with status := { valid := true, readable := true } }
    none
  let s ← get
  let taken ← StoreM.check ((s.tags.blks (cfg.extractSet pkt.addr) w).takeWriteback cfg pkt)
  StoreM.changeBlk .other (.way (cfg.extractSet pkt.addr) w) taken none

/-- `tempBlock` takes the data of a response. -/
def fillTemp (pkt : Packet) (now : Tick) : StoreM cfg Unit := do
  StoreM.useTempBlock pkt
  let s ← get
  let filled ← StoreM.check (s.tempBlock.fill cfg pkt now)
  StoreM.changeBlk .other .temp filled none

/-- The way is the victim for the packet's guest, the set does not hold the block yet, and the block
in the way is clean. -/
structure Room (wf : Prop) (s : Store cfg) (pkt : Packet) (w : Fin cfg.assoc) : Prop where
  victim : ∃ mask, s.tags.findVictim pkt.guestID pkt.addr = .ok (mask, w)
  miss : wf → s.tags.findBlock pkt.guestID pkt.addr pkt.isSecure = none
  clean : (s.tags.blks (cfg.extractSet pkt.addr) w).isDirty = false ∨
    (s.tags.blks (cfg.extractSet pkt.addr) w).isValid = false

/-- One small step of the block store. -/
inductive Micro (wf : Prop) (G : GuestID → Prop) : Store cfg → Store cfg → Prop
  | plain {s : Store cfg} (e : Event) (he : e.isPlain = true) : Micro wf G s (s.record e)
  | victim {s : Store cfg} {guest : GuestID} {addr : Addr} {mask : BitVec 64} {w : Fin cfg.assoc}
      (h : s.tags.findVictim guest addr = .ok (mask, w)) :
      Micro wf G s (s.record (.victim guest mask (cfg.extractSet addr) w))
  | touch {s : Store cfg} (guest : GuestID) (addr : Addr) (isSecure : Bool) (now : Tick) :
      Micro wf G s { s with tags := (s.tags.accessBlock guest addr isSecure now).1 }
  | locks {s : Store cfg} : Micro wf G s { s with tags := s.tags.clearLocks }
  | program {s : Store cfg} (waymasks : List (BitVec 64)) :
      Micro wf G s { s with tags := { s.tags with waymasks := waymasks } }
  | change {s : Store cfg} {p : BlkPtr cfg.assoc} {site : Site} {after : CacheBlk}
      {handed : Option Packet} (h : BlkChange wf G s p site after handed) :
      Micro wf G s (s.changed site p after handed)
  | takeOut {s s' : Store cfg} {p : BlkPtr cfg.assoc} {site : Site} {blk : CacheBlk}
      {handed : Option Packet} (h : BlkGone wf s p site blk handed)
      (hrun : StoreM.takeOut site p blk handed s = .ok ((), s')) : Micro wf G s s'
  | fillNew {s s' : Store cfg} {pkt : Packet} {w : Fin cfg.assoc} {now : Tick}
      (hroom : Room wf s pkt w) (hread : pkt.isRead = true) (hG : G pkt.guestID)
      (hrun : PardG5V.fillNew pkt w now s = .ok ((), s')) : Micro wf G s s'
  | writebackNew {s s' : Store cfg} {pkt : Packet} {w : Fin cfg.assoc}
      (hroom : Room wf s pkt w) (hG : G pkt.guestID)
      (hrun : PardG5V.writebackNew pkt w s = .ok ((), s')) : Micro wf G s s'
  | fillTemp {s s' : Store cfg} {pkt : Packet} {now : Tick}
      (hread : pkt.isRead = true) (hG : G pkt.guestID)
      (hrun : PardG5V.fillTemp pkt now s = .ok ((), s')) : Micro wf G s s'

abbrev MicroSteps (wf : Prop) (G : GuestID → Prop) : Store cfg → Store cfg → Prop :=
  ReflTransGen (Micro wf G)

end Steps

/-! ## What the larger steps do -/

section Effects

variable {cfg : CacheConfig} {s s' : Store cfg} {p : BlkPtr cfg.assoc} {pkt : Packet}
  {tags : LRU cfg} {site : Site} {blk : CacheBlk} {handed : Option Packet} {guest : GuestID}
  {now : Tick}

theorem Store.blk_withTags (h : tags.blks = s.tags.blks) :
    Store.blk { s with tags := tags } p = s.blk p := by
  cases p with
  | way set w => exact congrFun (congrFun h set) w
  | temp => rfl

/-- Taking a block out leaves it invalid and only reorders its set. -/
theorem takeOut_cases (h : StoreM.takeOut site p blk handed s = .ok ((), s')) :
    ∃ tags blk', tags.blks = s.tags.blks ∧ tags.waymasks = s.tags.waymasks ∧
      s' = Store.changed { s with tags := tags } site p (CacheBlk.invalidate blk') handed ∧
      s'.log = .change site (s.blk p) blk'.invalidate handed :: s.log := by
  cases p with
  | temp =>
    obtain rfl := StoreM.changeBlk_eq_ok.mp h
    exact ⟨s.tags, blk, rfl, rfl, rfl, Store.log_changed _ _ _ _ _⟩
  | way set w =>
    simp only [StoreM.takeOut, bind_eq_ok, get_eq_ok, StoreM.check_eq_ok, modify_eq_ok,
      StoreM.changeBlk_eq_ok] at h
    obtain ⟨_, _, ⟨rfl, rfl⟩, ⟨tags, blk'⟩, _, ⟨hinval, rfl⟩, _, _, rfl, rfl⟩ := h
    obtain ⟨hblks, hmasks, _⟩ := LRU.invalidate_spec hinval
    refine ⟨tags, blk', hblks, hmasks, rfl, ?_⟩
    rw [Store.log_changed, Store.blk_withTags hblks]

def inserted (s : Store cfg) (tags : LRU cfg) (guest : GuestID) (pkt : Packet)
    (w : Fin cfg.assoc) (blk : CacheBlk) : Store cfg :=
  (Store.record { s with tags := tags }
    (.insert guest ((s.tags.waymasks[guest.toNat]?).getD 0) (cfg.extractSet pkt.addr) w)).changed
      .other (.way (cfg.extractSet pkt.addr) w) blk none

def insertEvents (s : Store cfg) (guest : GuestID) (pkt : Packet) (w : Fin cfg.assoc)
    (blk : CacheBlk) : List Event :=
  [.change .other (s.blk (.way (cfg.extractSet pkt.addr) w)) blk none,
    .insert guest ((s.tags.waymasks[guest.toNat]?).getD 0) (cfg.extractSet pkt.addr) w]

theorem log_inserted (h : tags.blks = s.tags.blks) (guest : GuestID) (pkt : Packet)
    (w : Fin cfg.assoc) (blk : CacheBlk) :
    (inserted s tags guest pkt w blk).log = insertEvents s guest pkt w blk ++ s.log := by
  rw [inserted, Store.log_changed, Store.blk_record, Store.blk_withTags h]
  rfl

variable {w : Fin cfg.assoc}

theorem insertBlock_cases {u : Unit} (h : StoreM.insertBlock guest pkt w s = .ok (u, s')) :
    ∃ tags blk, s.tags.insertBlock guest pkt (s.blk (.way (cfg.extractSet pkt.addr) w)) w
        = .ok (tags, blk) ∧ s' = inserted s tags guest pkt w blk := by
  simp only [StoreM.insertBlock, bind_eq_ok, get_eq_ok, StoreM.check_eq_ok, modify_eq_ok,
    StoreM.emit_eq_ok, StoreM.changeBlk_eq_ok] at h
  obtain ⟨_, _, ⟨rfl, rfl⟩, ⟨tags, blk⟩, _, ⟨hins, rfl⟩, _, _, rfl, _, _, rfl, rfl⟩ := h
  exact ⟨tags, blk, hins, rfl⟩

theorem blk_inserted (tags : LRU cfg) (guest : GuestID) (pkt : Packet) (w : Fin cfg.assoc)
    (blk : CacheBlk) :
    (inserted s tags guest pkt w blk).blk (.way (cfg.extractSet pkt.addr) w) = blk := by
  rw [inserted, Store.blk_changed, if_pos rfl]

theorem blk_inserted_of_ne (h : tags.blks = s.tags.blks) {q : BlkPtr cfg.assoc}
    (hq : q ≠ .way (cfg.extractSet pkt.addr) w) :
    (inserted s tags guest pkt w blk).blk q = s.blk q := by
  rw [inserted, Store.blk_changed, if_neg hq, Store.blk_record, Store.blk_withTags h]

theorem setOf_inserted (q : BlkPtr cfg.assoc) :
    (inserted s tags guest pkt w blk).setOf q = s.setOf q := by
  cases q with
  | way set w | temp => rfl

theorem fillNew_cases (h : fillNew pkt w now s = .ok ((), s')) : ∃ tags blk filled,
      s.tags.insertBlock pkt.guestID pkt (s.blk (.way (cfg.extractSet pkt.addr) w)) w
        = .ok (tags, blk) ∧
      blk.fill cfg pkt now = .ok filled ∧
      s' = (inserted s tags pkt.guestID pkt w blk).changed .other
        (.way (cfg.extractSet pkt.addr) w) filled none ∧
      s'.log = .change .other blk filled none ::
        (insertEvents s pkt.guestID pkt w blk ++ s.log) := by
  simp only [fillNew, bind_eq_ok, get_eq_ok, StoreM.check_eq_ok, StoreM.changeBlk_eq_ok] at h
  obtain ⟨_, _, hins, _, _, ⟨rfl, rfl⟩, filled, _, ⟨hfill, rfl⟩, rfl⟩ := h
  obtain ⟨tags, blk, htags, rfl⟩ := insertBlock_cases hins
  rw [Store.tags_blks, blk_inserted] at hfill
  refine ⟨tags, blk, filled, htags, hfill, rfl, ?_⟩
  rw [Store.log_changed, blk_inserted, log_inserted (LRU.insertBlock_spec htags).1]

/-- The store after a new block is made valid for a writeback from above. -/
def opened (s : Store cfg) (tags : LRU cfg) (pkt : Packet) (w : Fin cfg.assoc)
    (blk : CacheBlk) : Store cfg :=
  ((inserted s tags pkt.guestID pkt w blk).record (.allocated pkt)).changed .other
    (.way (cfg.extractSet pkt.addr) w)
    { blk with status := { valid := true, readable := true } } none

theorem writebackNew_cases (h : writebackNew pkt w s = .ok ((), s')) : ∃ tags blk taken,
      s.tags.insertBlock pkt.guestID pkt (s.blk (.way (cfg.extractSet pkt.addr) w)) w
        = .ok (tags, blk) ∧
      CacheBlk.takeWriteback cfg { blk with status := { valid := true, readable := true } } pkt
        = .ok taken ∧
      s' = (opened s tags pkt w blk).changed .other (.way (cfg.extractSet pkt.addr) w) taken none ∧
      s'.log =
        .change .other { blk with status := { valid := true, readable := true } } taken none ::
        .change .other blk { blk with status := { valid := true, readable := true } } none ::
        .allocated pkt :: (insertEvents s pkt.guestID pkt w blk ++ s.log) := by
  simp only [writebackNew, bind_eq_ok, get_eq_ok, StoreM.check_eq_ok, StoreM.emit_eq_ok,
    StoreM.changeBlk_eq_ok] at h
  obtain ⟨_, _, hins, _, _, rfl, _, _, ⟨rfl, rfl⟩, _, _, rfl, _, _, ⟨rfl, rfl⟩, taken, _,
    ⟨htake, rfl⟩, rfl⟩ := h
  obtain ⟨tags, blk, htags, rfl⟩ := insertBlock_cases hins
  have hblk : ((inserted s tags pkt.guestID pkt w blk).record (.allocated pkt)).tags.blks
      (cfg.extractSet pkt.addr) w = blk := by
    rw [Store.tags_blks, Store.blk_record, blk_inserted]
  rw [hblk] at htake ⊢
  rw [Store.tags_blks, Store.blk_changed, if_pos rfl] at htake
  refine ⟨tags, blk, taken, htags, htake, rfl, ?_⟩
  rw [Store.log_changed, Store.blk_changed, if_pos rfl, Store.log_changed, ← Store.tags_blks, hblk,
    ← log_inserted (LRU.insertBlock_spec htags).1]
  rfl

def tempFor (s : Store cfg) (pkt : Packet) : CacheBlk :=
  { s.tempBlock.withQosTag pkt.qosTag with tag := cfg.extractTag pkt.addr }

theorem fillTemp_cases (h : fillTemp pkt now s = .ok ((), s')) :
    ∃ filled, s.tempBlock.isValid = false ∧ (tempFor s pkt).fill cfg pkt now = .ok filled ∧
      s' = (Store.changed { s with tempSet := cfg.extractSet pkt.addr } .other .temp
        (tempFor s pkt) none).changed .other .temp filled none ∧
      s'.log = .change .other (tempFor s pkt) filled none ::
        .change .other s.tempBlock (tempFor s pkt) none :: s.log := by
  simp only [fillTemp, StoreM.useTempBlock, bind_eq_ok, get_eq_ok, StoreM.check_eq_ok,
    modify_eq_ok, StoreM.changeBlk_eq_ok, assert_eq_ok, Bool.not_eq_true'] at h
  obtain ⟨_, _, ⟨_, _, ⟨rfl, rfl⟩, _, _, ⟨hinvalid, rfl⟩, _, _, rfl, rfl⟩, _, _, ⟨rfl, rfl⟩,
    filled, _,
    ⟨hfill, rfl⟩, rfl⟩ := h
  exact ⟨filled, hinvalid, hfill, rfl, rfl⟩

/-- A change that keeps the line of a block does not affect lookups. -/
theorem findBlock_changed {after : CacheBlk}
    (h : (s.blk p).Kept after) (guest : GuestID) (addr : Addr) (isSecure : Bool) :
    (s.changed site p after handed).tags.findBlock guest addr isSecure =
      s.tags.findBlock guest addr isSecure := by
  refine LRU.findBlock_congr (Store.sets_changed s p after site handed) fun set w => ?_
  rw [Store.tags_blks, Store.tags_blks, Store.blk_changed]
  split
  · next heq =>
    rw [heq, LRU.hits, LRU.hits, h.tag, h.valid, h.guestID, h.secure]
  · rfl

end Effects

/-! ## The log -/

/-- The log says that the packet was made to write a block back. -/
def Store.Logged {cfg : CacheConfig} (s : Store cfg) (wb : Packet) : Prop :=
  ∃ before after, Event.change .writeback before after (some wb) ∈ s.log

section Log

variable {cfg : CacheConfig} {wf : Prop} {G : GuestID → Prop} {s s' : Store cfg}

/-- The events that one small step from `s` can write. -/
inductive NewEvent (wf : Prop) (G : GuestID → Prop) (s : Store cfg) : Event → Prop
  | plain {e : Event} (he : e.isPlain = true) : NewEvent wf G s e
  | victim {guest : GuestID} {addr : Addr} {mask : BitVec 64} {w : Fin cfg.assoc}
      (h : s.tags.findVictim guest addr = .ok (mask, w)) :
      NewEvent wf G s (.victim guest mask (cfg.extractSet addr) w)
  | insert {guest : GuestID} {addr : Addr} {mask : BitVec 64} {w : Fin cfg.assoc}
      (h : s.tags.findVictim guest addr = .ok (mask, w)) :
      NewEvent wf G s (.insert guest mask (cfg.extractSet addr) w)
  | allocated {pkt : Packet} : NewEvent wf G s (.allocated pkt)
  | change {p : BlkPtr cfg.assoc} {site : Site} {after : CacheBlk} {handed : Option Packet}
      (h : BlkChange wf G s p site after handed) :
      NewEvent wf G s (.change site (s.blk p) after handed)
  | gone {p : BlkPtr cfg.assoc} {site : Site} {blk after : CacheBlk} {handed : Option Packet}
      (h : BlkGone wf s p site blk handed) :
      NewEvent wf G s (.change site (s.blk p) after handed)
  | replaced {before after : CacheBlk}
      (h : before.isDirty = false ∨ before.isValid = false) :
      NewEvent wf G s (.change .other before after none)

theorem Room.insertEvents {pkt : Packet} {w : Fin cfg.assoc} (hroom : Room wf s pkt w)
    (blk : CacheBlk) :
    ∀ e ∈ insertEvents s pkt.guestID pkt w blk, NewEvent wf G s e := by
  intro e he
  obtain ⟨mask, hvictim⟩ := hroom.victim
  simp only [PardG5V.insertEvents, (LRU.findVictim_spec hvictim).1, Option.getD_some,
    List.mem_cons, List.not_mem_nil, or_false] at he
  rcases he with rfl | rfl
  · exact .replaced hroom.clean
  · exact .insert hvictim

/-- What one small step writes into the log. -/
theorem Micro.newEvents (h : Micro wf G s s') :
    ∃ es, s'.log = es ++ s.log ∧ ∀ e ∈ es, NewEvent wf G s e := by
  cases h with
  | plain e he => exact ⟨[e], rfl, by simpa using .plain he⟩
  | victim h => exact ⟨[_], rfl, by simpa using .victim h⟩
  | touch | locks | program => exact ⟨[], rfl, by simp⟩
  | change h => exact ⟨[_], Store.log_changed _ _ _ _ _, by simpa using .change h⟩
  | takeOut hgone hrun =>
    obtain ⟨_, blk', _, _, _, hlog⟩ := takeOut_cases hrun
    exact ⟨[_], hlog, by simpa using .gone hgone⟩
  | fillNew hroom _ _ hrun =>
    obtain ⟨_, blk, filled, hins, _, _, hlog⟩ := fillNew_cases hrun
    refine ⟨_ :: insertEvents s _ _ _ blk, hlog, fun e he => ?_⟩
    rcases List.mem_cons.mp he with rfl | he
    · exact .replaced (.inr (LRU.insertBlock_spec hins).2.2.1)
    · exact hroom.insertEvents blk e he
  | writebackNew hroom _ hrun =>
    obtain ⟨_, blk, taken, hins, _, _, hlog⟩ := writebackNew_cases hrun
    refine ⟨_ :: _ :: _ :: insertEvents s _ _ _ blk, hlog, fun e he => ?_⟩
    simp only [List.mem_cons] at he
    rcases he with rfl | rfl | rfl | he
    · exact .replaced (.inl rfl)
    · exact .replaced (.inr (LRU.insertBlock_spec hins).2.2.1)
    · exact .allocated
    · exact hroom.insertEvents blk e he
  | fillTemp _ _ hrun =>
    obtain ⟨filled, hinvalid, _, _, hlog⟩ := fillTemp_cases hrun
    refine ⟨[_, _], hlog, fun e he => ?_⟩
    simp only [List.mem_cons, List.not_mem_nil, or_false] at he
    rcases he with rfl | rfl
    · exact .replaced (.inr hinvalid)
    · exact .replaced (.inr hinvalid)

/-- What holds of every event that a small step can write holds of the whole log,
as long as `Q` does. -/
theorem MicroSteps.log_forall_while {I Q : Store cfg → Prop} {P : Event → Prop}
    (hback : ∀ t t', Micro wf G t t' → Q t' → Q t)
    (hkept : ∀ t t', I t → Micro wf G t t' → Q t' → I t')
    (hnew : ∀ t e, I t → NewEvent wf G t e → P e) (hsteps : MicroSteps wf G s s') (hQ : Q s')
    (hI : I s) (hlog : ∀ e ∈ s.log, P e) : I s' ∧ ∀ e ∈ s'.log, P e := by
  induction hsteps with
  | refl => exact ⟨hI, hlog⟩
  | tail _ hstep ih =>
    obtain ⟨hmid, hmidLog⟩ := ih (hback _ _ hstep hQ)
    obtain ⟨es, heq, hes⟩ := hstep.newEvents
    refine ⟨hkept _ _ hmid hstep hQ, fun e he => ?_⟩
    rw [heq] at he
    rcases List.mem_append.mp he with he | he
    · exact hnew _ e hmid (hes e he)
    · exact hmidLog e he

theorem MicroSteps.log_forall {I : Store cfg → Prop} {P : Event → Prop}
    (hkept : ∀ t t', I t → Micro wf G t t' → I t')
    (hnew : ∀ t e, I t → NewEvent wf G t e → P e) (hsteps : MicroSteps wf G s s') (hI : I s)
    (hlog : ∀ e ∈ s.log, P e) : I s' ∧ ∀ e ∈ s'.log, P e :=
  hsteps.log_forall_while (Q := fun _ => True) (fun _ _ _ _ => trivial)
    (fun t t' ht hstep _ => hkept t t' ht hstep) hnew trivial hI hlog

theorem Micro.log_suffix (h : Micro wf G s s') : s.log <:+ s'.log := by
  obtain ⟨es, heq, _⟩ := h.newEvents
  rw [heq]
  exact List.suffix_append es s.log

theorem MicroSteps.log_suffix (h : MicroSteps wf G s s') : s.log <:+ s'.log := by
  induction h with
  | refl => exact List.suffix_refl _
  | tail _ hstep ih => exact ih.trans hstep.log_suffix

end Log

end PardG5V
