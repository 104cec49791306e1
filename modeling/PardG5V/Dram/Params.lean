import PardG5V.Basic
import PardG5V.Lib.Prog

/-!
# The parameter table of the memory controller and its control plane

The table of `DRAMCtrl::ParamTableEntry`, the calls `get` and `set` of the control plane, and the
choice of a row buffer in `decodeAddr`. A row is three 64-bit words, and `get` and `set` take its
address as that of an array of words: an offset of three or more reaches the rows behind it, and
in the end the memory behind the table.

Results: `control_plane_isolation`, `offset_reaches_next_row`.
-/

namespace PardG5V

def qosTagToLDomID (tag : BitVec 64) : LDomID := (tag &&& 0xFFFF).setWidth 16

/-! ## The table -/

structure ParamTableEntry where
  priority : BitVec 64 := 0
  effectivePriority : BitVec 64 := 0
  rowbufMask : BitVec 64 := 0
deriving DecidableEq, Repr

namespace ParamTableEntry

/-- The words of a row in memory order. -/
inductive Field
  | priority
  | effectivePriority
  | rowbufMask
deriving DecidableEq, Repr

/-- The field at an offset of fewer than three words. -/
def Field.ofOffset : Nat → Field
  | 0 => .priority
  | 1 => .effectivePriority
  | _ => .rowbufMask

def read (entry : ParamTableEntry) : Field → BitVec 64
  | .priority => entry.priority
  | .effectivePriority => entry.effectivePriority
  | .rowbufMask => entry.rowbufMask

def write (entry : ParamTableEntry) (data : BitVec 64) : Field → ParamTableEntry
  | .priority => { entry with priority := data }
  | .effectivePriority => { entry with effectivePriority := data }
  | .rowbufMask => { entry with rowbufMask := data }

end ParamTableEntry

abbrev paramRows : Nat := 32

abbrev ParamTable := Fin paramRows → ParamTableEntry

namespace ParamTable

/-- The table that the constructors leave: rows of zeros, and the row buffer 0 for the
first four LDoms. -/
def initial : ParamTable := fun ldom => if ldom.val < 4 then { rowbufMask := 1 } else {}

/-- The table as an array of words: the row and the field of a word, if the table has
that word. -/
def wordAt (index : Nat) : Except Abort (Fin paramRows × ParamTableEntry.Field) :=
  if h : index / 3 < paramRows then .ok (⟨index / 3, h⟩, .ofOffset (index % 3))
  else .error .outOfBounds

/-- `params[ldomID]`, for which nothing but an assertion of `decodeAddr` checks the
bound. -/
def row (params : ParamTable) (ldom : LDomID) : Except Abort ParamTableEntry :=
  if h : ldom.toNat < paramRows then .ok (params ⟨ldom.toNat, h⟩) else .error .outOfBounds

end ParamTable

/-! ## The control plane -/

/-- `CPA_DESTADDR`: the table that a destination address names. -/
inductive CpaTable
  | parameters
  | statistics
  | triggers
  | tlb
deriving DecidableEq, Repr

def cpaType (destAddr : BitVec 32) : CpaTable :=
  match (destAddr >>> 14 &&& 3).toNat with
  | 0 => .parameters
  | 1 => .statistics
  | 2 => .triggers
  | _ => .tlb

def cpaOffset (destAddr : BitVec 32) : Nat := (destAddr &&& 0xFF).toNat

/-- `PARDg5VDRAMCtrl::set`. The calls that are only answered by a warning change
nothing. -/
def ParamTable.set (params : ParamTable) (ldom : LDomID) (destAddr : BitVec 32)
    (data : BitVec 64) : Except Abort ParamTable :=
  if 4 ≤ ldom.toNat then .ok params
  else match cpaType destAddr with
    | .parameters => do
      let (row, field) ← ParamTable.wordAt (3 * ldom.toNat + cpaOffset destAddr)
      return fun ldom => if ldom = row then (params ldom).write data field else params ldom
    | _ => .ok params

/-- `PARDg5VDRAMCtrl::get`. `stats` is the memory that starts at the row of an LDom in
the statistics table. -/
def ParamTable.get (params : ParamTable) (stats : LDomID → Nat → Except Abort (BitVec 64))
    (ldom : LDomID) (destAddr : BitVec 32) : Except Abort (BitVec 64) :=
  if 4 ≤ ldom.toNat then .ok (-1)
  else match cpaType destAddr with
    | .parameters => do
      let (row, field) ← ParamTable.wordAt (3 * ldom.toNat + cpaOffset destAddr)
      return (params row).read field
    | .statistics => stats ldom (cpaOffset destAddr)
    | .triggers => .ok 0xFFFFCCCCCCCCCCCC
    | .tlb => .ok 0xFFFFDDDDDDDDDDDD

abbrev rowBufferCount : Nat := 2

/-- The lowest row buffer in the mask. -/
def ParamTableEntry.lowestRowbuf (entry : ParamTableEntry) : Option (Fin rowBufferCount) :=
  (List.finRange rowBufferCount).find? fun rowbuf : Fin rowBufferCount =>
    entry.rowbufMask.getLsbD rowbuf

/-- The row buffer that `decodeAddr` selects for a request of the LDom. -/
def ParamTable.selectRowbuf (params : ParamTable) (ldom : LDomID) :
    Except Abort (Fin rowBufferCount) := do
  assert (ldom.toNat < paramRows)
  let entry ← params.row ldom
  match entry.lowestRowbuf with
  | some rowbuf => .ok rowbuf
  | none => .error .assertion

/-! ## Sequences of calls -/

structure SetCall where
  ldom : LDomID
  destAddr : BitVec 32
  data : BitVec 64

namespace SetCall

def run (call : SetCall) (params : ParamTable) : Except Abort ParamTable :=
  params.set call.ldom call.destAddr call.data

def field (call : SetCall) : ParamTableEntry.Field := .ofOffset (cpaOffset call.destAddr)

/-- The call is for a parameter of one of the four LDoms, its offset stays in the row of
that LDom, and a new row buffer mask selects one of the row buffers. -/
structure Contained (call : SetCall) : Prop where
  ldom_lt : call.ldom.toNat < 4
  parameters : cpaType call.destAddr = .parameters
  offset_lt : cpaOffset call.destAddr < 3
  selects : call.field = .rowbufMask → call.data.getLsbD 0 = true ∨ call.data.getLsbD 1 = true

/-- Two calls store to one field of one row. -/
def SameField (call call' : SetCall) : Prop := call.ldom = call'.ldom ∧ call.field = call'.field

end SetCall

def ParamTable.setAll (params : ParamTable) (calls : List SetCall) : Except Abort ParamTable :=
  calls.foldlM (fun params call => call.run params) params

/-- Each of the four LDoms has a row buffer selected. -/
def ParamTable.Selects (params : ParamTable) : Prop :=
  ∀ ldom : Fin paramRows, ldom.val < 4 →
    (params ldom).rowbufMask.getLsbD 0 = true ∨ (params ldom).rowbufMask.getLsbD 1 = true

namespace ParamLemmas

open Prog

variable {call : SetCall} {params : ParamTable} {field : ParamTableEntry.Field}
  {calls : List SetCall}

@[simp] theorem read_write_self (entry : ParamTableEntry) (data : BitVec 64)
    (field : ParamTableEntry.Field) : (entry.write data field).read field = data := by
  cases field <;> rfl

theorem read_write_of_ne (entry : ParamTableEntry) (data : BitVec 64)
    {field' : ParamTableEntry.Field} (h : field' ≠ field) :
    (entry.write data field).read field' = entry.read field' := by
  cases field <;> cases field' <;> first | rfl | exact absurd rfl h

theorem wordAt_eq {ldom offset : Nat} (hoffset : offset < 3) (h : ldom < paramRows) :
    ParamTable.wordAt (3 * ldom + offset) = .ok (⟨ldom, h⟩, .ofOffset offset) := by
  have hrow : (3 * ldom + offset) / 3 = ldom := by omega
  have hfield : (3 * ldom + offset) % 3 = offset := by omega
  simp only [ParamTable.wordAt, hrow, hfield, h, dite_true]

theorem ldom_lt_rows (h : call.Contained) : call.ldom.toNat < paramRows :=
  Nat.lt_of_lt_of_le h.ldom_lt (by decide)

def stored (params : ParamTable) (call : SetCall) : ParamTable := fun ldom =>
  if ldom.val = call.ldom.toNat then (params ldom).write call.data call.field else params ldom

/-- A call that stays in its row changes one field of that row. -/
theorem set_inRow (h : call.Contained) : call.run params = .ok (stored params call) := by
  have hrow := wordAt_eq h.offset_lt (ldom_lt_rows h)
  have hlt : ¬ 4 ≤ call.ldom.toNat := Nat.not_le.mpr h.ldom_lt
  simp only [SetCall.run, ParamTable.set, hlt, if_false, h.parameters, hrow]
  show Except.ok _ = Except.ok _
  refine congrArg Except.ok (funext fun ldom => ?_)
  simp only [stored, Fin.ext_iff, SetCall.field]

theorem get_inRow (h : call.Contained) (stats : LDomID → Nat → Except Abort (BitVec 64)) :
    params.get stats call.ldom call.destAddr =
      .ok ((params ⟨call.ldom.toNat, ldom_lt_rows h⟩).read call.field) := by
  have hrow := wordAt_eq h.offset_lt (ldom_lt_rows h)
  have hlt : ¬ 4 ≤ call.ldom.toNat := Nat.not_le.mpr h.ldom_lt
  simp only [ParamTable.get, hlt, if_false, h.parameters, hrow]
  rfl

theorem selects_stored (h : call.Contained) (hsel : params.Selects) :
    (stored params call).Selects := by
  intro ldom hldom
  by_cases hrow : ldom.val = call.ldom.toNat
  · simp only [stored, hrow, if_true]
    cases hfield : call.field with
    | priority | effectivePriority => exact hsel ldom hldom
    | rowbufMask => exact h.selects hfield
  · simp only [stored, hrow, if_false]
    exact hsel ldom hldom

theorem read_stored_of_ne {ldom : Fin paramRows}
    (h : ¬ (call.ldom.toNat = ldom.val ∧ call.field = field)) :
    (stored params call ldom).read field = (params ldom).read field := by
  unfold stored
  split
  · next hrow => exact read_write_of_ne _ _ fun hfield => h ⟨hrow.symm, hfield.symm⟩
  · rfl

theorem setAll_cons (h : call.Contained) :
    params.setAll (call :: calls) = (stored params call).setAll calls := by
  rw [ParamTable.setAll, List.foldlM_cons, set_inRow h]
  rfl

theorem setAll_append {params' : ParamTable} {before after : List SetCall}
    (h : params.setAll before = .ok params') :
    params.setAll (before ++ after) = params'.setAll after := by
  unfold ParamTable.setAll at h ⊢
  rw [List.foldlM_append, h]
  rfl

/-- What calls that stay in their rows do to the table. -/
theorem setAll_contained (params : ParamTable) (h : ∀ call ∈ calls, call.Contained) :
    ∃ params', params.setAll calls = .ok params' ∧ (params.Selects → params'.Selects) ∧
      ∀ (ldom : Fin paramRows) field,
        (∀ call ∈ calls, ¬ (call.ldom.toNat = ldom.val ∧ call.field = field)) →
        (params' ldom).read field = (params ldom).read field := by
  induction calls generalizing params with
  | nil => exact ⟨params, rfl, id, fun _ _ _ => rfl⟩
  | cons call calls ih =>
    have hcall := h call List.mem_cons_self
    obtain ⟨params', hset, hsel, hread⟩ :=
      ih (stored params call) fun c hc => h c (List.mem_cons_of_mem call hc)
    refine ⟨params', ?_, fun hs => hsel (selects_stored hcall hs), fun ldom field hother => ?_⟩
    · rw [setAll_cons hcall]
      exact hset
    · rw [hread ldom field fun c hc => hother c (List.mem_cons_of_mem call hc)]
      exact read_stored_of_ne (hother call List.mem_cons_self)

theorem lowestRowbuf_isSome {entry : ParamTableEntry}
    (h : entry.rowbufMask.getLsbD 0 = true ∨ entry.rowbufMask.getLsbD 1 = true) :
    ∃ rowbuf, entry.lowestRowbuf = some rowbuf := by
  rw [← Option.isSome_iff_exists, ParamTableEntry.lowestRowbuf, List.find?_isSome]
  rcases h with h | h
  · exact ⟨0, List.mem_finRange _, h⟩
  · exact ⟨1, List.mem_finRange _, h⟩

theorem selectRowbuf_ok (hsel : params.Selects) {ldom : LDomID} (hldom : ldom.toNat < 4) :
    ∃ rowbuf, params.selectRowbuf ldom = .ok rowbuf := by
  have hrows : ldom.toNat < paramRows := Nat.lt_of_lt_of_le hldom (by decide)
  obtain ⟨rowbuf, hrowbuf⟩ := lowestRowbuf_isSome (hsel ⟨ldom.toNat, hrows⟩ hldom)
  refine ⟨rowbuf, ?_⟩
  have hrow : params.row ldom = .ok (params ⟨ldom.toNat, hrows⟩) := dif_pos hrows
  simp only [ParamTable.selectRowbuf, hrows, decide_true, assert_true, hrow, bind, Except.bind,
    hrowbuf]

end ParamLemmas

open ParamLemmas

/-- After calls that stay in their rows and keep a row buffer selected: every call changed the row
of its own LDom only, its value is read back until another call stores there, and the requests of
the four LDoms are decoded. -/
theorem control_plane_isolation (stats : LDomID → Nat → Except Abort (BitVec 64))
    {calls : List SetCall} (h : ∀ call ∈ calls, call.Contained) :
    ∃ params, ParamTable.initial.setAll calls = .ok params ∧
      (∀ before call after, calls = before ++ call :: after →
        ∃ params₁ params₂, ParamTable.initial.setAll before = .ok params₁ ∧
          call.run params₁ = .ok params₂ ∧
          (∀ ldom : Fin paramRows, ldom.val ≠ call.ldom.toNat → params₂ ldom = params₁ ldom) ∧
          ((∀ later ∈ after, ¬ later.SameField call) →
            params.get stats call.ldom call.destAddr = .ok call.data)) ∧
      ∀ ldom : LDomID, ldom.toNat < 4 → ∃ rowbuf, params.selectRowbuf ldom = .ok rowbuf := by
  obtain ⟨params, hset, hsel, -⟩ := setAll_contained .initial h
  have hinit : ParamTable.initial.Selects := by
    intro ldom hldom
    simp [ParamTable.initial, hldom]
  refine ⟨params, hset, fun before call after hsplit => ?_,
    fun ldom hldom => selectRowbuf_ok (hsel hinit) hldom⟩
  subst hsplit
  have hcall := h call (by simp)
  obtain ⟨params₁, hbefore, -, -⟩ :=
    setAll_contained .initial fun c hc => h c (List.mem_append_left (call :: after) hc)
  have hafter : ∀ c ∈ after, c.Contained := fun c hc => h c (by simp [hc])
  obtain ⟨params', hrest, -, hread⟩ := setAll_contained (stored params₁ call) hafter
  -- the calls after this one start from the table it leaves
  have hall : params' = params := by
    rw [setAll_append hbefore, setAll_cons hcall, hrest] at hset
    exact Except.ok.inj hset
  refine ⟨params₁, stored params₁ call, hbefore, set_inRow hcall, fun ldom hldom => if_neg hldom,
    fun hlater => ?_⟩
  rw [get_inRow hcall, ← hall, hread]
  · simp [stored]
  · intro later hmem hsame
    exact hlater later hmem ⟨BitVec.eq_of_toNat_eq hsame.1, hsame.2⟩

/-- LDom 1 takes both row buffers, LDom 0 sets its priority, and LDom 1 gives one of them back. -/
def overwrittenMask : List SetCall := [⟨1, 2, 3⟩, ⟨0, 0, 5⟩, ⟨1, 2, 1⟩]

theorem control_plane_isolation_overwritten :
    ∃ params, ParamTable.initial.setAll overwrittenMask = .ok params ∧
      params.get (fun _ _ => .error .outOfBounds) 0 0 = .ok 5 ∧
      params.get (fun _ _ => .error .outOfBounds) 1 2 = .ok 1 ∧
      ∃ rowbuf, params.selectRowbuf 1 = .ok rowbuf := by
  have hcontained : ∀ call ∈ overwrittenMask, call.Contained := by
    simp only [overwrittenMask, List.forall_mem_cons, List.not_mem_nil, false_imp_iff,
      implies_true, and_true]
    refine ⟨⟨?_, ?_, ?_, ?_⟩, ⟨?_, ?_, ?_, ?_⟩, ?_, ?_, ?_, ?_⟩ <;> decide
  obtain ⟨params, hset, hcalls, hdecodes⟩ :=
    control_plane_isolation (fun _ _ => .error .outOfBounds) hcontained
  obtain ⟨_, _, -, -, -, hfirst⟩ := hcalls [⟨1, 2, 3⟩] ⟨0, 0, 5⟩ [⟨1, 2, 1⟩] rfl
  obtain ⟨_, _, -, -, -, hlast⟩ := hcalls [⟨1, 2, 3⟩, ⟨0, 0, 5⟩] ⟨1, 2, 1⟩ [] rfl
  exact ⟨params, hset, hfirst (by simp [SetCall.SameField]), hlast (by simp),
    hdecodes 1 (by decide)⟩

/-- The offset 4 in the row of LDom 0 is the scheduling priority of LDom 1, and a mask
without a row buffer stops the simulator at the LDom's next request. -/
theorem offset_reaches_next_row : (∃ params, (SetCall.mk 0 4 7).run .initial = .ok params ∧
      params 1 ≠ ParamTable.initial 1) ∧
    ∃ params, (SetCall.mk 0 2 0).run .initial = .ok params ∧
      params.selectRowbuf 0 = .error .assertion :=
  ⟨⟨_, rfl, by decide⟩, _, rfl, rfl⟩

end PardG5V
