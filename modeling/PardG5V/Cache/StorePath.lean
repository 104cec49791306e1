import PardG5V.Cache.Micro

/-!
# The functions of the store as sequences of small steps

Each function of `Store.lean` is a path of `Micro` steps, and returns what its callers need to
know about the blocks it leaves.
-/

namespace PardG5V

open Prog Relation

variable {guest : GuestID} {addr : Addr}

namespace StoreM

variable {cfg : CacheConfig} {wf : Prop} {G : GuestID → Prop} {s s' : Store cfg}
  {p : BlkPtr cfg.assoc} {pkt : Packet}
  {deferred downgrade invalidate needsExclusive isTiming isDeferred pendingInval : Bool} {lat : Nat}
  {w : Fin cfg.assoc} {tags : LRU cfg}

theorem forEach_path {ι : Type} {body : ι → StoreM cfg Unit}
    (hbody : ∀ i s s', body i s = .ok ((), s') → MicroSteps wf G s s') :
    ∀ {is : List ι} {s s' : Store cfg}, Prog.forEach body is s = .ok ((), s') →
      MicroSteps wf G s s'
  | [], s, s', h => by
    obtain rfl := Prog.forEach_nil_eq_ok.mp h
    exact .refl
  | i :: is, s, s', h => by
    obtain ⟨mid, hi, his⟩ := Prog.forEach_cons_eq_ok.mp h
    exact (hbody i s mid hi).trans (forEach_path hbody his)

theorem writebackBlk_eq_ok {r : Packet} : writebackBlk p s = .ok (r, s') ↔
      ((s.blk p).isValid = true ∧ (s.blk p).isDirty = true) ∧
        s.changed .writeback p (s.blk p).writtenBack
          (some ((s.blk p).writebackPkt cfg (s.setOf p))) = s' ∧
        (s.blk p).writebackPkt cfg (s.setOf p) = r := by
  simp [writebackBlk]

theorem writebackBlk_path {r : Packet} (h : writebackBlk p s = .ok (r, s')) :
    MicroSteps wf G s s' := by
  obtain ⟨⟨hvalid, hdirty⟩, rfl, _⟩ := writebackBlk_eq_ok.mp h
  exact .single (.change (.writeback hvalid hdirty))

theorem writebackVisitor_path (h : writebackVisitor p s = .ok ((), s')) : MicroSteps wf G s s' := by
  have hcases : (s.blk p).isDirty = true ∧ (s.blk p).isValid = true ∧
      (s.record (.sentFunctional ((s.blk p).flushPkt cfg (s.setOf p)))).changed .flush p
        (s.blk p).clearDirty (some ((s.blk p).flushPkt cfg (s.setOf p))) = s' ∨
      (s.blk p).isDirty = false ∧ s = s' := by
    simpa [writebackVisitor] using h
  rcases hcases with ⟨hdirty, hvalid, rfl⟩ | ⟨_, rfl⟩
  · set sent := s.record (.sentFunctional ((s.blk p).flushPkt cfg (s.setOf p))) with hsent
    have hflush : BlkChange wf G sent p .flush (sent.blk p).clearDirty
        (some ((sent.blk p).flushPkt cfg (sent.setOf p))) :=
      .flush (by rw [hsent, Store.blk_record]; exact hvalid)
        (by rw [hsent, Store.blk_record]; exact hdirty)
    refine .head (.plain _ rfl) (.single (.change ?_))
    simpa [hsent] using hflush
  · exact .refl

theorem invalidateVisitor_path (h : invalidateVisitor p s = .ok ((), s')) :
    MicroSteps wf G s s' := by
  have hcases : (s.blk p).isValid = true ∧ (s.blk p).isDirty = false ∧
      takeOut .other p (s.blk p) none s = .ok ((), s') ∨ (s.blk p).isValid = false ∧ s = s' := by
    simpa [invalidateVisitor] using h
  rcases hcases with ⟨_, hclean, hout⟩ | ⟨_, rfl⟩
  · exact .single (.takeOut (.flushed hclean) hout)
  · exact .refl

theorem forEachBlk_path {visitor : BlkPtr cfg.assoc → StoreM cfg Unit}
    (hvisit : ∀ {p s s'}, visitor p s = .ok ((), s') → MicroSteps wf G s s')
    (h : forEachBlk visitor s = .ok ((), s')) : MicroSteps wf G s s' :=
  forEach_path (fun _ _ _ => forEach_path (fun _ _ _ => hvisit)) h

theorem uncacheableFlush_cases (h : uncacheableFlush pkt s = .ok ((), s')) :
    ∃ s₁, (s₁ = s ∨ s₁ = { s with tags := s.tags.clearLocks }) ∧
      (s₁ = s' ∨ ∃ w s₂, writebackVisitor (.way (cfg.extractSet pkt.addr) w) s₁ = .ok ((), s₂) ∧
        invalidateVisitor (.way (cfg.extractSet pkt.addr) w) s₂ = .ok ((), s')) := by
  simp only [uncacheableFlush, findBlock, bind_eq_ok, when_eq_ok, modify_eq_ok, get_eq_ok,
    pure_eq_ok] at h
  obtain ⟨_, s₁, hlocks, hit, _, ⟨_, _, ⟨rfl, rfl⟩, rfl, rfl⟩, hflush⟩ := h
  refine ⟨s₁, by tauto, ?_⟩
  cases hfind : s₁.tags.findBlock pkt.guestID pkt.addr pkt.isSecure with
  | none =>
    rw [hfind] at hflush
    exact .inl (pure_eq_ok.mp hflush).2
  | some w =>
    rw [hfind] at hflush
    obtain ⟨_, s₂, hwrite, hinval⟩ := bind_eq_ok.mp hflush
    exact .inr ⟨w, s₂, hwrite, hinval⟩

theorem uncacheableFlush_path (h : uncacheableFlush pkt s = .ok ((), s')) :
    MicroSteps wf G s s' := by
  obtain ⟨s₁, hlocks, hflush⟩ := uncacheableFlush_cases h
  have hstart : MicroSteps wf G s s₁ := by
    rcases hlocks with rfl | rfl
    · exact .refl
    · exact .single .locks
  rcases hflush with rfl | ⟨w, s₂, hwrite, hinval⟩
  · exact hstart
  · exact hstart.trans ((writebackVisitor_path hwrite).trans (invalidateVisitor_path hinval))

theorem satisfyCpuSideRequest_cases {r : Packet}
    (h : satisfyCpuSideRequest pkt p deferred downgrade s = .ok (r, s')) :
    ∃ served, (s.blk p).serve cfg pkt deferred downgrade (p == .temp) = .ok served ∧
      served.pkt = r ∧
      (served.gaveUp = true ∧
          takeOut (.request pkt) p served.blk (handedBy served.pkt) s = .ok ((), s') ∨
        served.gaveUp = false ∧
          s.changed (.request pkt) p served.blk (handedBy served.pkt) = s') := by
  have hcases : ∃ served, (s.blk p).serve cfg pkt deferred downgrade (p == .temp) = .ok served ∧
      (served.gaveUp = true ∧
          takeOut (.request pkt) p served.blk (handedBy served.pkt) s = .ok ((), s') ∧
          served.pkt = r ∨
        served.gaveUp = false ∧
          s.changed (.request pkt) p served.blk (handedBy served.pkt) = s' ∧ served.pkt = r) := by
    simpa [satisfyCpuSideRequest, handedBy] using h
  obtain ⟨served, hserve, hres⟩ := hcases
  exact ⟨served, hserve, by tauto, by tauto⟩

theorem satisfyCpuSideRequest_path {r : Packet}
    (h : satisfyCpuSideRequest pkt p deferred downgrade s = .ok (r, s'))
    (hfits : wf → (s.blk p).isValid = true → Fits s p pkt) : MicroSteps wf G s s' := by
  obtain ⟨served, hserve, _, ⟨hgone, hout⟩ | ⟨hkept, rfl⟩⟩ := satisfyCpuSideRequest_cases h
  · have hvalid := (CacheBlk.serve_spec hserve).valid
    exact .single (.takeOut (.request hserve hgone fun hwf => hfits hwf hvalid) hout)
  · have hvalid := (CacheBlk.serve_spec hserve).valid
    exact .single (.change (.request hserve hkept fun hwf => hfits hwf hvalid))

theorem snoopHit_cases {r : Packet × Option Packet}
    (h : snoopHit pkt p invalidate needsExclusive isTiming isDeferred pendingInval s
      = .ok (r, s')) :
    ∃ snooped, (s.blk p).snoop cfg pkt invalidate needsExclusive isTiming isDeferred pendingInval
        = .ok snooped ∧ (snooped.pkt, snooped.response) = r ∧
      (snooped.gaveUp = true ∧
          takeOut (.snoop pkt invalidate) p snooped.blk snooped.response s = .ok ((), s') ∨
        snooped.gaveUp = false ∧
          s.changed (.snoop pkt invalidate) p snooped.blk snooped.response = s') := by
  have hcases : ∃ snooped,
      (s.blk p).snoop cfg pkt invalidate needsExclusive isTiming isDeferred pendingInval
        = .ok snooped ∧
      (snooped.gaveUp = true ∧
          takeOut (.snoop pkt invalidate) p snooped.blk snooped.response s = .ok ((), s') ∧
          (snooped.pkt, snooped.response) = r ∨
        snooped.gaveUp = false ∧
          s.changed (.snoop pkt invalidate) p snooped.blk snooped.response = s' ∧
          (snooped.pkt, snooped.response) = r) := by
    simpa [snoopHit] using h
  obtain ⟨snooped, hsnoop, hres⟩ := hcases
  exact ⟨snooped, hsnoop, by tauto, by tauto⟩

theorem snoopHit_path {r : Packet × Option Packet}
    (h : snoopHit pkt p invalidate needsExclusive isTiming isDeferred pendingInval s = .ok (r, s'))
    (hvalid : (s.blk p).isValid = true) : MicroSteps wf G s s' := by
  obtain ⟨snooped, hsnoop, _, ⟨hgone, hout⟩ | ⟨hkept, rfl⟩⟩ := snoopHit_cases h
  · exact .single (.takeOut (.snoop hsnoop hgone) hout)
  · exact .single (.change (.snoop hsnoop hvalid hkept))

/-! ## Making room for a block -/

variable {mq : MSHRQueue} {r : Option (Fin cfg.assoc) × List Packet}

theorem allocateBlock_cases (h : allocateBlock mq guest addr s = .ok (r, s')) :
    ∃ mask w, s.tags.findVictim guest addr = .ok (mask, w) ∧
      (r = (none, []) ∧ s' = s.record (.victim guest mask (cfg.extractSet addr) w) ∨
        r = (some w, []) ∧ s' = s.record (.victim guest mask (cfg.extractSet addr) w) ∧
          ((s.tags.blks (cfg.extractSet addr) w).isDirty = false ∨
            (s.tags.blks (cfg.extractSet addr) w).isValid = false) ∨
        ∃ wb, r = (some w, [wb]) ∧ writebackBlk (.way (cfg.extractSet addr) w)
          (s.record (.victim guest mask (cfg.extractSet addr) w)) = .ok (wb, s')) := by
  simp only [allocateBlock, bind_eq_ok, get_eq_ok, check_eq_ok, emit_eq_ok, ite_eq_ok] at h
  obtain ⟨_, _, ⟨rfl, rfl⟩, ⟨mask, w⟩, _, ⟨hvictim, rfl⟩, _, _, rfl, hrest⟩ := h
  refine ⟨mask, w, hvictim, ?_⟩
  rcases hrest with ⟨hvalid, hrest⟩ | ⟨hvalid, hrest⟩
  · generalize mq.findMatch _ _ _ = found at hrest
    cases found with
    | some i =>
      simp only [bind_eq_ok, check_eq_ok, pure_eq_ok] at hrest
      obtain ⟨_, _, ⟨_, rfl⟩, _, _, ⟨_, rfl⟩, rfl, rfl⟩ := hrest
      exact .inl ⟨rfl, rfl⟩
    | none =>
      simp only [ite_eq_ok, bind_eq_ok, pure_eq_ok] at hrest
      rcases hrest with ⟨hdirty, wb, _, hwb, rfl, rfl⟩ | ⟨hdirty, rfl, rfl⟩
      · exact .inr (.inr ⟨wb, rfl, hwb⟩)
      · exact .inr (.inl ⟨rfl, rfl, .inl (Bool.eq_false_iff.mpr hdirty)⟩)
  · obtain ⟨rfl, rfl⟩ := pure_eq_ok.mp hrest
    exact .inr (.inl ⟨rfl, rfl, .inr (Bool.eq_false_iff.mpr hvalid)⟩)

variable {now : Tick} {wbs : List Packet}

theorem handleFill_cases {hit : Option (BlkPtr cfg.assoc)}
    (h : handleFill mq pkt hit now s = .ok ((p, wbs), s')) :
    (hit = some p ∧ wbs = [] ∧ ∃ filled, (s.blk p).fill cfg pkt now = .ok filled ∧
        s' = s.changed .other p filled none) ∨
      hit = none ∧ pkt.hasData = true ∧
        ((∃ w s₁, p = .way (cfg.extractSet pkt.addr) w ∧
            allocateBlock mq pkt.guestID pkt.addr s = .ok ((some w, wbs), s₁) ∧
            fillNew pkt w now s₁ = .ok ((), s')) ∨
          ∃ s₁, p = .temp ∧ allocateBlock mq pkt.guestID pkt.addr s = .ok ((none, wbs), s₁) ∧
            fillTemp pkt now s₁ = .ok ((), s')) := by
  cases hit with
  | some q =>
    have hcases : (s.blk q).tag = cfg.extractTag pkt.addr ∧
        (pkt.hasData = true ∨ (s.blk q).isValid = true) ∧
        ∃ filled, (s.blk q).fill cfg pkt now = .ok filled ∧
          s.changed .other q filled none = s' ∧ q = p ∧ wbs = [] := by
      simpa [handleFill, fillPlace] using h
    obtain ⟨_, _, filled, hfill, rfl, rfl, rfl⟩ := hcases
    exact .inl ⟨rfl, rfl, filled, hfill, rfl⟩
  | none =>
    simp only [handleFill, fillPlace, bind_eq_ok, check_eq_ok, get_eq_ok, changeBlk_eq_ok,
      pure_eq_ok] at h
    obtain ⟨⟨p', wbs'⟩, s₂, ⟨_, _, ⟨hdata, rfl⟩, ⟨dest, wbs''⟩, s₁, halloc, hplace⟩, _, _,
      ⟨rfl, rfl⟩,
      _, _, ⟨_, rfl⟩, filled, _, ⟨hfill, rfl⟩, _, _, rfl, heq, rfl⟩ := h
    obtain ⟨rfl, rfl⟩ := Prod.mk.inj heq
    refine .inr ⟨rfl, assert_eq_ok.mp hdata, ?_⟩
    cases dest with
    | some w =>
      obtain ⟨_, _, hinsert, hret⟩ := bind_eq_ok.mp hplace
      obtain ⟨heq, rfl⟩ := pure_eq_ok.mp hret
      obtain ⟨rfl, rfl⟩ := Prod.mk.inj heq
      refine .inl ⟨w, s₁, rfl, halloc, ?_⟩
      simp only [fillNew, bind_eq_ok, check_eq_ok, get_eq_ok, changeBlk_eq_ok]
      exact ⟨_, _, hinsert, _, _, ⟨rfl, rfl⟩, filled, _, ⟨hfill, rfl⟩, rfl⟩
    | none =>
      obtain ⟨_, _, htemp, hret⟩ := bind_eq_ok.mp hplace
      obtain ⟨heq, rfl⟩ := pure_eq_ok.mp hret
      obtain ⟨rfl, rfl⟩ := Prod.mk.inj heq
      refine .inr ⟨s₁, rfl, halloc, ?_⟩
      simp only [fillTemp, bind_eq_ok, check_eq_ok, get_eq_ok, changeBlk_eq_ok]
      exact ⟨_, _, htemp, _, _, ⟨rfl, rfl⟩, filled, _, ⟨hfill, rfl⟩, rfl⟩

variable {hit : Option (Fin cfg.assoc)}

theorem accessWriteback_cases
    {r : Accessed cfg} (h : accessWriteback mq pkt hit lat s = .ok (r, s')) :
    (∃ w taken, hit = some w ∧
        (s.blk (.way (cfg.extractSet pkt.addr) w)).takeWriteback cfg pkt = .ok taken ∧
        s' = s.changed .other (.way (cfg.extractSet pkt.addr) w) taken none ∧
        r = ⟨true, some w, lat, [], pkt⟩) ∨
      hit = none ∧ ∃ dest wbs s₁,
        allocateBlock mq pkt.guestID pkt.addr s = .ok ((dest, wbs), s₁) ∧
        (dest = none ∧ s' = s₁ ∧ r = ⟨false, none, lat, wbs, pkt⟩ ∨
          ∃ w, dest = some w ∧ writebackNew pkt w s₁ = .ok ((), s') ∧
            r = ⟨true, some w, lat, wbs, pkt⟩) := by
  simp only [accessWriteback, writebackPlace, bind_eq_ok, check_eq_ok] at h
  obtain ⟨_, _, ⟨_, rfl⟩, ⟨dest, wbs⟩, s₂, hplace, _, _, ⟨_, rfl⟩, hrest⟩ := h
  cases hit with
  | some w =>
    obtain ⟨heq, rfl⟩ := pure_eq_ok.mp hplace
    obtain ⟨rfl, rfl⟩ := Prod.mk.inj heq
    simp only [bind_eq_ok, get_eq_ok, check_eq_ok, changeBlk_eq_ok, pure_eq_ok] at hrest
    obtain ⟨_, _, ⟨rfl, rfl⟩, taken, _, ⟨htake, rfl⟩, _, _, rfl, _, _, ⟨_, rfl⟩, rfl, rfl⟩ := hrest
    exact .inl ⟨w, taken, rfl, htake, rfl, rfl⟩
  | none =>
    obtain ⟨⟨dest', wbs'⟩, s₁, halloc, hinsert⟩ := bind_eq_ok.mp hplace
    refine .inr ⟨rfl, dest', wbs', s₁, halloc, ?_⟩
    cases dest' with
    | none =>
      obtain ⟨heq, rfl⟩ := pure_eq_ok.mp hinsert
      obtain ⟨rfl, rfl⟩ := Prod.mk.inj heq
      obtain ⟨rfl, rfl⟩ := pure_eq_ok.mp hrest
      exact .inl ⟨rfl, rfl, rfl⟩
    | some w =>
      simp only [bind_eq_ok, get_eq_ok, emit_eq_ok, changeBlk_eq_ok, pure_eq_ok] at hinsert
      obtain ⟨_, _, hins, _, _, rfl, _, _, ⟨rfl, rfl⟩, _, _, rfl, heq, rfl⟩ := hinsert
      obtain ⟨rfl, rfl⟩ := Prod.mk.inj heq
      simp only [bind_eq_ok, get_eq_ok, check_eq_ok, changeBlk_eq_ok, pure_eq_ok] at hrest
      obtain ⟨_, _, ⟨rfl, rfl⟩, taken, _, ⟨htake, rfl⟩, _, _, rfl, _, _, ⟨_, rfl⟩, rfl, rfl⟩ :=
        hrest
      refine .inr ⟨w, rfl, ?_, rfl⟩
      simp only [writebackNew, bind_eq_ok, get_eq_ok, emit_eq_ok, check_eq_ok, changeBlk_eq_ok]
      exact ⟨_, _, hins, (), _, rfl, _, _, ⟨rfl, rfl⟩, (), _, rfl, _, _, ⟨rfl, rfl⟩, taken, _,
        ⟨htake, rfl⟩, rfl⟩

theorem access_cases {r : Accessed cfg} (h : access mq pkt now s = .ok (r, s')) :
    (pkt.req.uncacheable = true ∧ uncacheableFlush pkt s = .ok ((), s') ∧
        r = ⟨false, none, cfg.hitLatency, [], pkt⟩) ∨
      ∃ tags hit lat, s.tags.accessBlock pkt.guestID pkt.addr pkt.isSecure now = (tags, hit, lat) ∧
        ((∃ w pkt', hit = some w ∧ r = ⟨true, some w, lat, [], pkt'⟩ ∧
            satisfyCpuSideRequest pkt (.way (cfg.extractSet pkt.addr) w) false false
              { s with tags := tags } = .ok (pkt', s')) ∨
          accessWriteback mq pkt hit lat { s with tags := tags } = .ok (r, s') ∨
          s' = { s with tags := tags } ∧
            (r = ⟨true, none, lat, [], pkt.setExtraData 0⟩ ∨ r = ⟨false, hit, lat, [], pkt⟩)) := by
  simp only [access, accessCacheable, ite_eq_ok, bind_eq_ok, pure_eq_ok, get_eq_ok,
    modify_eq_ok] at h
  rcases h with ⟨hunc, _, _, hflush, rfl, rfl⟩ | ⟨_, _, _, ⟨rfl, rfl⟩, _, _, rfl, h⟩
  · exact .inl ⟨hunc, hflush, rfl⟩
  · generalize hacc : s.tags.accessBlock pkt.guestID pkt.addr pkt.isSecure now = acc at h
    obtain ⟨tags, hit, lat⟩ := acc
    refine .inr ⟨tags, hit, lat, rfl, ?_⟩
    have hmiss : ∀ hit, accessMiss mq pkt hit lat { s with tags := tags } = .ok (r, s') →
        accessWriteback mq pkt hit lat { s with tags := tags } = .ok (r, s') ∨
          s' = { s with tags := tags } ∧
            (r = ⟨true, none, lat, [], pkt.setExtraData 0⟩ ∨ r = ⟨false, hit, lat, [], pkt⟩) := by
      intro hit hm
      simp only [accessMiss, ite_eq_ok, bind_eq_ok, check_eq_ok, pure_eq_ok] at hm
      rcases hm with ⟨_, hwb⟩ | ⟨_, _, _, ⟨_, rfl⟩, hr, rfl⟩
      · exact .inl hwb
      · split at hr
        · exact .inr ⟨rfl, .inl hr.symm⟩
        · exact .inr ⟨rfl, .inr hr.symm⟩
    cases hit with
    | none => exact .inr (hmiss none h)
    | some w =>
      simp only [ite_eq_ok, bind_eq_ok, check_eq_ok, pure_eq_ok] at h
      rcases h with ⟨_, _, _, ⟨_, rfl⟩, pkt', _, hserve, rfl, rfl⟩ | ⟨_, hm⟩
      · exact .inl ⟨w, pkt', rfl, rfl, hserve⟩
      · exact .inr (hmiss (some w) hm)

theorem allocateBlock_path (h : allocateBlock mq guest addr s = .ok (r, s')) :
    MicroSteps wf G s s' := by
  obtain ⟨mask, w, hvictim, hcases⟩ := allocateBlock_cases h
  have hstart : Micro wf G s (s.record (.victim guest mask (cfg.extractSet addr) w)) :=
    .victim hvictim
  rcases hcases with ⟨_, rfl⟩ | ⟨_, rfl, _⟩ | ⟨wb, _, hwb⟩
  · exact .single hstart
  · exact .single hstart
  · exact .head hstart (writebackBlk_path hwb)

theorem allocateBlock_findBlock (h : allocateBlock mq guest addr s = .ok (r, s'))
    (guest' : GuestID) (addr' : Addr) (isSecure : Bool) :
    s'.tags.findBlock guest' addr' isSecure = s.tags.findBlock guest' addr' isSecure := by
  obtain ⟨mask, w, _, ⟨_, rfl⟩ | ⟨_, rfl, _⟩ | ⟨wb, _, hwb⟩⟩ := allocateBlock_cases h
  · rfl
  · rfl
  · obtain ⟨_, rfl, rfl⟩ := writebackBlk_eq_ok.mp hwb
    exact findBlock_changed .writtenBack _ _ _

theorem writebackBlk_logged {r : Packet} (h : writebackBlk p s = .ok (r, s')) : s'.Logged r := by
  obtain ⟨_, rfl, rfl⟩ := writebackBlk_eq_ok.mp h
  refine ⟨s.blk p, (s.blk p).writtenBack, ?_⟩
  rw [Store.log_changed]
  exact List.mem_cons_self

theorem allocateBlock_logged {dest : Option (Fin cfg.assoc)}
    (h : allocateBlock mq guest addr s = .ok ((dest, wbs), s')) : ∀ wb ∈ wbs, s'.Logged wb := by
  obtain ⟨mask, w, _, ⟨heq, _⟩ | ⟨heq, _⟩ | ⟨wb, heq, hwb⟩⟩ := allocateBlock_cases h
  · rw [(Prod.mk.inj heq).2]
    simp
  · rw [(Prod.mk.inj heq).2]
    simp
  · rw [(Prod.mk.inj heq).2]
    intro wb' hmem
    obtain rfl := List.mem_singleton.mp hmem
    exact writebackBlk_logged hwb

theorem allocateBlock_room (h : allocateBlock mq pkt.guestID pkt.addr s = .ok ((some w, wbs), s'))
    (hmiss : wf → s.tags.findBlock pkt.guestID pkt.addr pkt.isSecure = none) :
    Room wf s' pkt w := by
  have hmiss' : wf → s'.tags.findBlock pkt.guestID pkt.addr pkt.isSecure = none :=
    fun hwf => (allocateBlock_findBlock h _ _ _).trans (hmiss hwf)
  obtain ⟨mask, w', hvictim, ⟨heq, _⟩ | ⟨heq, rfl, hclean⟩ | ⟨wb, heq, hwb⟩⟩ :=
    allocateBlock_cases h
  · simp at heq
  · obtain rfl := Option.some.inj (Prod.mk.inj heq).1
    exact ⟨⟨mask, hvictim⟩, hmiss', hclean⟩
  · obtain rfl := Option.some.inj (Prod.mk.inj heq).1
    obtain ⟨_, rfl, _⟩ := writebackBlk_eq_ok.mp hwb
    refine ⟨⟨mask, ?_⟩, hmiss', .inl ?_⟩
    · rw [LRU.findVictim_congr (Store.sets_changed _ _ _ _ _) (Store.waymasks_changed _ _ _ _ _)]
      exact hvictim
    · rw [Store.tags_blks, Store.blk_changed, if_pos rfl]
      rfl

/-! ## Fills -/

/-- The block that `handleFill` takes for a packet: the one that the tag store has
for it, if any. -/
def HitOf (s : Store cfg) (pkt : Packet) (hit : Option (BlkPtr cfg.assoc)) : Prop :=
  hit = (s.tags.findBlock pkt.guestID pkt.addr pkt.isSecure).map (.way (cfg.extractSet pkt.addr))

theorem HitOf.some (h : HitOf s pkt (some p)) : ∃ w, p = .way (cfg.extractSet pkt.addr) w ∧
      s.tags.findBlock pkt.guestID pkt.addr pkt.isSecure = some w := by
  unfold HitOf at h
  obtain ⟨w, hfind, rfl⟩ := Option.map_eq_some_iff.mp h.symm
  exact ⟨w, rfl, hfind⟩

theorem HitOf.none (h : HitOf s pkt none) :
    s.tags.findBlock pkt.guestID pkt.addr pkt.isSecure = none :=
  Option.map_eq_none_iff.mp h.symm

/-- Among the responses that fill a block, only a read brings data. -/
theorem isRead_of_hasData (hfills : pkt.isRead = true ∨ pkt.cmd = .UpgradeResp)
    (hdata : pkt.hasData = true) : pkt.isRead = true := by
  rcases hfills with hread | hcmd
  · exact hread
  · rw [Packet.hasData, hcmd] at hdata
    exact absurd hdata (by decide)

theorem handleFill_path {hit : Option (BlkPtr cfg.assoc)}
    (h : handleFill mq pkt hit now s = .ok ((p, wbs), s'))
    (hfills : pkt.isRead = true ∨ pkt.cmd = .UpgradeResp) (hhit : wf → HitOf s pkt hit)
    (hG : G pkt.guestID) : MicroSteps wf G s s' := by
  rcases handleFill_cases h with ⟨rfl, _, filled, hfill, rfl⟩ |
    ⟨rfl, hdata, ⟨w, s₁, rfl, halloc, hnew⟩ | ⟨s₁, rfl, halloc, htemp⟩⟩
  · exact .single (.change (.refill (fun hwf => (hhit hwf).some) hfill hG))
  · have hroom : Room wf s₁ pkt w := allocateBlock_room halloc fun hwf => (hhit hwf).none
    exact (allocateBlock_path halloc).tail
      (.fillNew hroom (isRead_of_hasData hfills hdata) hG hnew)
  · exact (allocateBlock_path halloc).tail (.fillTemp (isRead_of_hasData hfills hdata) hG htemp)

theorem handleFill_logged {hit : Option (BlkPtr cfg.assoc)}
    (h : handleFill mq pkt hit now s = .ok ((p, wbs), s')) :
    ∀ wb ∈ wbs, s'.Logged wb := by
  intro wb hmem
  rcases handleFill_cases h with ⟨rfl, rfl, _⟩ |
    ⟨rfl, _, ⟨w, s₁, rfl, halloc, hnew⟩ | ⟨s₁, rfl, halloc, htemp⟩⟩
  · exact absurd hmem List.not_mem_nil
  · obtain ⟨_, _, _, _, _, _, hlog⟩ := fillNew_cases hnew
    obtain ⟨before, after, hev⟩ := allocateBlock_logged halloc wb hmem
    exact ⟨before, after, by simp [hlog, hev]⟩
  · obtain ⟨_, _, _, _, hlog⟩ := fillTemp_cases htemp
    obtain ⟨before, after, hev⟩ := allocateBlock_logged halloc wb hmem
    exact ⟨before, after, by simp [hlog, hev]⟩

/-! ## Accesses -/

/-- The block that `accessBlock` returned is found again. -/
theorem accessBlock_again
    (hacc : s.tags.accessBlock pkt.guestID pkt.addr pkt.isSecure now = (tags, hit, lat)) :
    tags.findBlock pkt.guestID pkt.addr pkt.isSecure = hit := by
  have hsame := LRU.accessBlock_findBlock s.tags pkt.guestID pkt.addr pkt.isSecure now
  rw [← LRU.accessBlock_hit s.tags pkt.guestID pkt.addr pkt.isSecure now, hacc] at hsame
  exact hsame

theorem fits_touch
    (hacc : s.tags.accessBlock pkt.guestID pkt.addr pkt.isSecure now = (tags, hit, lat))
    (hhit : hit = some w) (hunshared : pkt.needsExclusive = true → pkt.shared = false) :
    Fits { s with tags := tags } (.way (cfg.extractSet pkt.addr) w) pkt := by
  have hfind : tags.findBlock pkt.guestID pkt.addr pkt.isSecure = some w :=
    (accessBlock_again hacc).trans hhit
  exact ⟨(LRU.findBlock_line hfind).2, hunshared⟩

theorem accessWriteback_path {r : Accessed cfg} (h : accessWriteback mq pkt hit lat s = .ok (r, s'))
    (hhit : s.tags.findBlock pkt.guestID pkt.addr pkt.isSecure = hit) (hG : G pkt.guestID) :
    MicroSteps wf G s s' := by
  rcases accessWriteback_cases h with ⟨w, taken, rfl, htake, rfl, _⟩ |
    ⟨rfl, dest, wbs, s₁, halloc, ⟨rfl, rfl, _⟩ | ⟨w, rfl, hnew, _⟩⟩
  · exact .single (.change (.rewrite rfl hhit htake hG))
  · exact allocateBlock_path halloc
  · exact (allocateBlock_path halloc).tail
      (.writebackNew (allocateBlock_room halloc fun _ => hhit) hG hnew)

theorem access_path {r : Accessed cfg} (h : access mq pkt now s = .ok (r, s')) (hG : G pkt.guestID)
    (hunshared : wf → pkt.needsExclusive = true → pkt.shared = false) : MicroSteps wf G s s' := by
  rcases access_cases h with ⟨_, hflush, _⟩ | ⟨tags, hit, lat, hacc, hcases⟩
  · exact uncacheableFlush_path hflush
  · have hstart : Micro wf G s { s with tags := tags } := by
      have htouch : Micro wf G s _ := .touch pkt.guestID pkt.addr pkt.isSecure now
      rwa [hacc] at htouch
    rcases hcases with ⟨w, pkt', hhit, _, hserve⟩ | hwb | ⟨rfl, _⟩
    · exact .head hstart (satisfyCpuSideRequest_path hserve fun hwf _ =>
        fits_touch hacc hhit (hunshared hwf))
    · exact .head hstart (accessWriteback_path hwb (accessBlock_again hacc) hG)
    · exact .single hstart

theorem access_logged {r : Accessed cfg}
    (h : access mq pkt now s = .ok (r, s')) : ∀ wb ∈ r.writebacks, s'.Logged wb := by
  intro wb hmem
  rcases access_cases h with ⟨_, _, rfl⟩ | ⟨tags, hit, lat, hacc, hcases⟩
  · exact absurd hmem List.not_mem_nil
  · rcases hcases with ⟨w, pkt', _, rfl, _⟩ | hwb | ⟨_, rfl | rfl⟩
    · exact absurd hmem List.not_mem_nil
    · rcases accessWriteback_cases hwb with ⟨w, taken, _, _, _, rfl⟩ |
        ⟨_, dest, wbs, s₁, halloc, ⟨_, rfl, rfl⟩ | ⟨w, _, hnew, rfl⟩⟩
      · exact absurd hmem List.not_mem_nil
      · exact allocateBlock_logged halloc wb hmem
      · obtain ⟨_, _, _, _, _, _, hlog⟩ := writebackNew_cases hnew
        obtain ⟨before, after, hev⟩ := allocateBlock_logged halloc wb hmem
        exact ⟨before, after, by simp [hlog, hev]⟩
    · exact absurd hmem List.not_mem_nil
    · exact absurd hmem List.not_mem_nil

/-- A request that `access` does not satisfy is as it was, and `access` returns the
block that the tag store has for it. -/
theorem access_unsatisfied {r : Accessed cfg}
    (h : access mq pkt now s = .ok (r, s')) (hr : r.satisfied = false) :
    r.pkt = pkt ∧ (pkt.req.uncacheable = true ∨
      s'.tags.findBlock pkt.guestID pkt.addr pkt.isSecure = r.blk) := by
  rcases access_cases h with ⟨hunc, _, rfl⟩ | ⟨tags, hit, lat, hacc, hcases⟩
  · exact ⟨rfl, .inl hunc⟩
  · rcases hcases with ⟨w, pkt', _, rfl, _⟩ | hwb | ⟨rfl, rfl | rfl⟩
    · exact Bool.noConfusion hr
    · rcases accessWriteback_cases hwb with ⟨w, taken, _, _, _, rfl⟩ |
        ⟨rfl, dest, wbs, s₁, halloc, ⟨_, rfl, rfl⟩ | ⟨w, _, hnew, rfl⟩⟩
      · exact Bool.noConfusion hr
      · exact ⟨rfl, .inr ((allocateBlock_findBlock halloc _ _ _).trans (accessBlock_again hacc))⟩
      · exact Bool.noConfusion hr
    · exact Bool.noConfusion hr
    · exact ⟨rfl, .inr (accessBlock_again hacc)⟩

end StoreM

end PardG5V
