import PardG5V.Basic
import PardG5V.Lib.Bytes
import PardG5V.Lib.Machine

/-!
# The Ethernet tap

`hyper/dev/ethertap.cc`: frames come from a socket, each behind its length in four bytes, and are
handed to the link. A frame that the link refuses waits for `retransmit`. When the buffer is empty
`process` takes the length of the next frame from what `read` returned, not from the bytes in
front of the frame, and it offers a new frame to the link also while older ones wait.

Results: `tap_delivers_frames`, `tap_loses_frames`.
-/

namespace PardG5V

open Prog Bytes

/-- `EtherTap`. `frames` are those that the peer writes and `stream` are their bytes that are not
read yet. `sent` are the packets that the link took, the oldest first. -/
structure EtherTap where
  buffer : Nat → Byte := fun _ => 0
  buffer_offset : Nat := 0
  data_len : Nat := 0
  packetBuffer : List (List Byte) := []
  txEvent : Bool := false
  attached : Bool := true
  frames : List (List Byte)
  stream : List Byte
  sent : List (List Byte) := []

/-- The poll event finds data, of which `read` returns `n` bytes, or `txEvent` runs. The answers
are those of the link to the packets it is offered. -/
inductive TapInput
  | poll (n : Nat) (answers : List Bool)
  | retransmit (accepted : Bool)

namespace EtherTap

/-- A frame on the socket, as `recvPacket` writes it. -/
def frame (data : List Byte) : List Byte := (littleEndian 4 data.length).reverse ++ data

/-- `read(socket, buffer + buffer_offset, buflen - buffer_offset)`, which detaches the tap if there
is nothing, and the length that is expected after it. -/
def read (n : Nat) (t : EtherTap) : EtherTap :=
  if n = 0 then { t with attached := false }
  else
    { t with
      buffer := store t.buffer t.buffer_offset (t.stream.take n)
      stream := t.stream.drop n
      buffer_offset := t.buffer_offset + n
      data_len := if t.data_len = 0 then (n + 2 ^ 32 - 4) % 2 ^ 32 else t.data_len }

def shift (t : EtherTap) : EtherTap :=
  let left := t.buffer_offset - (t.data_len + 4)
  if left = 0 then { t with buffer_offset := 0, data_len := 0 }
  else
    let buffer := store t.buffer 0 (load t.buffer (t.data_len + 4) left)
    { t with buffer, buffer_offset := left, data_len := value (load buffer 0 4).reverse }

/-- `interface->sendPacket(packet)`, and what `process` does if it is refused. -/
def offer (packet : List Byte) (accepted : Bool) (t : EtherTap) : EtherTap :=
  if accepted then { t with sent := t.sent ++ [packet] }
  else { t with packetBuffer := t.packetBuffer ++ [packet], txEvent := true }

/-- The loop of `process`. Every round takes bytes out of the buffer. -/
def deliver : Nat → List Bool → EtherTap → EtherTap
  | 0, _, t => t
  | fuel + 1, answers, t =>
    if t.data_len ≠ 0 ∧ t.data_len + 4 ≤ t.buffer_offset then
      deliver fuel answers.tail (t.shift.offer (load t.buffer 4 t.data_len) (answers.headD false))
    else t

def process (n : Nat) (answers : List Bool) (t : EtherTap) : EtherTap :=
  let t := if t.buffer_offset < t.data_len + 4 then t.read n else t
  if t.attached then t.deliver t.buffer_offset answers else t

def retransmit (accepted : Bool) (t : EtherTap) : EtherTap :=
  match t.packetBuffer with
  | [] => { t with txEvent := false }
  | packet :: rest =>
    if accepted then { t with
      packetBuffer := rest, txEvent := !rest.isEmpty, sent := t.sent ++ [packet] }
    else t

def next (t : EtherTap) : TapInput → EtherTap
  | .poll n answers => t.process n answers
  | .retransmit accepted => t.retransmit accepted

/-- A read returns at most what fits into the buffer, and nothing only if nothing fits. -/
def Enabled (bufsz : Nat) (t : EtherTap) : TapInput → Prop
  | .poll n _ => t.attached = true ∧ n ≤ t.stream.length ∧ n ≤ bufsz - t.buffer_offset ∧
      (n = 0 → bufsz ≤ t.buffer_offset)
  | .retransmit _ => t.txEvent = true

instance (bufsz : Nat) (t : EtherTap) (input : TapInput) : Decidable (t.Enabled bufsz input) := by
  cases input <;> unfold Enabled <;> infer_instance

/-- A tap with a buffer of `bufsz` bytes, an `int`, and a peer that writes frames that fit. -/
def machine (bufsz : Nat) : Machine Unit EtherTap TapInput where
  start t := bufsz < 2 ^ 31 ∧ ∃ frames : List (List Byte),
    (∀ f ∈ frames, f ≠ [] ∧ f.length + 4 ≤ bufsz) ∧ t = { frames, stream := frames.flatMap frame }
  enabled := Enabled bufsz
  call input t := .ok ((), t.next input)

instance (bufsz : Nat) (t : EtherTap) (input : TapInput) :
    Decidable ((machine bufsz).enabled t input) :=
  inferInstanceAs (Decidable (t.Enabled bufsz input))

/-- The read returns the next frame and no more, and the link takes no new frame while others
wait. -/
def OneByOne (t : EtherTap) : TapInput → Prop
  | .poll n answers =>
    n = (t.frames.getD (t.sent.length + t.packetBuffer.length) []).length + 4 ∧
      (t.packetBuffer ≠ [] → answers.headD false = false)
  | .retransmit _ => True

instance (t : EtherTap) (input : TapInput) : Decidable (t.OneByOne input) := by
  cases input <;> unfold OneByOne <;> infer_instance

/-! ## One frame -/

variable {t : EtherTap} {bufsz : Nat} {f : List Byte} {rest : List (List Byte)}

/-- The frames that were read were sent or wait in order, and the others are still to come. -/
structure InOrder (t : EtherTap) (rest : List (List Byte)) : Prop where
  frames : t.frames = t.sent ++ t.packetBuffer ++ rest
  stream : t.stream = rest.flatMap frame
  fits : ∀ f ∈ rest, f ≠ [] ∧ f.length + 4 < 2 ^ 31
  empty : t.buffer_offset = 0 ∧ t.data_len = 0
  attached : t.attached = true
  waits : t.packetBuffer ≠ [] → t.txEvent = true

theorem load_frame (buffer : Nat → Byte) (f : List Byte) :
    load (store buffer 0 (frame f)) 4 f.length = f := by
  have hall : load (store buffer 0 (frame f)) 0 (frame f).length = frame f := load_store_same rfl
  have hlen : (frame f).length = 4 + f.length := by simp [frame]
  have hsplit : load (store buffer 0 (frame f)) 0 (4 + f.length) =
      load (store buffer 0 (frame f)) 0 4 ++ load (store buffer 0 (frame f)) 4 f.length := by
    simp [load, List.range_add]
  rw [hlen, hsplit] at hall
  exact (List.append_inj hall (by simp)).2

theorem deliver_empty (h : t.data_len = 0) (fuel : Nat) (answers : List Bool) :
    t.deliver fuel answers = t := by
  cases fuel with
  | zero => rfl
  | succ fuel => exact if_neg fun hmore => hmore.1 h

theorem offer_data_len (packet : List Byte) (accepted : Bool) (t : EtherTap) :
    (t.offer packet accepted).data_len = t.data_len := by
  unfold offer
  split <;> rfl

/-- A frame that is read alone is offered to the link, and the buffer is empty again. -/
theorem process_frame (h : InOrder t (f :: rest)) (answers : List Bool) :
    t.process (f.length + 4) answers =
      { t with
        buffer := store t.buffer 0 (frame f)
        stream := rest.flatMap frame }.offer f (answers.headD false) := by
  obtain ⟨hoff, hlen⟩ := h.empty
  obtain ⟨hne, hfits⟩ := h.fits f List.mem_cons_self
  have hpos : f.length ≠ 0 := fun hzero => hne (List.length_eq_zero_iff.mp hzero)
  have hframe : (frame f).length = f.length + 4 := by simp [frame, Nat.add_comm]
  have hstream : t.stream = frame f ++ rest.flatMap frame := h.stream
  have hread : t.read (f.length + 4) =
      { t with
        buffer := store t.buffer 0 (frame f), stream := rest.flatMap frame
        buffer_offset := f.length + 4, data_len := f.length } := by
    have hdata : (f.length + 4 + 2 ^ 32 - 4) % 2 ^ 32 = f.length := by omega
    unfold read
    rw [if_neg (Nat.succ_ne_zero _), hoff, hlen, if_pos rfl, hdata, hstream, Nat.zero_add,
      List.take_left' hframe, List.drop_left' hframe]
  have hmore : t.buffer_offset < t.data_len + 4 := by omega
  unfold process
  rw [if_pos hmore, hread]
  rw [if_pos h.attached]
  -- the first round takes the whole buffer
  show (if _ then _ else _) = _
  rw [if_pos ⟨hpos, Nat.le_refl _⟩, load_frame]
  unfold shift
  rw [if_pos (Nat.sub_self _), deliver_empty]
  · rw [hoff, hlen]
  · exact offer_data_len _ _ _

/-! ## Runs -/

theorem InOrder.poll (h : InOrder t rest) {n : Nat} {answers : List Bool}
    (hen : t.Enabled bufsz (.poll n answers)) (hone : t.OneByOne (.poll n answers)) :
    ∃ rest', InOrder (t.process n answers) rest' := by
  obtain ⟨hn, hwaits⟩ := hone
  cases rest with
  | nil =>
    have hstream : t.stream = [] := h.stream
    have hle : n ≤ t.stream.length := hen.2.1
    rw [hn, hstream] at hle
    exact absurd hle (Nat.not_succ_le_zero _)
  | cons f rest =>
    have hnext : t.frames.getD (t.sent.length + t.packetBuffer.length) [] = f := by
      rw [h.frames, ← List.length_append]
      simp
    have hfits : ∀ g ∈ rest, g ≠ [] ∧ g.length + 4 < 2 ^ 31 := fun g hg =>
      h.fits g (List.mem_cons_of_mem f hg)
    rw [hn, hnext, process_frame h]
    refine ⟨rest, ?_⟩
    cases hanswer : answers.headD false with
    | true =>
      -- the link took the frame, so none was waiting
      have hnil : t.packetBuffer = [] := by
        by_contra hne
        cases hanswer.symm.trans (hwaits hne)
      refine { h with frames := ?_, stream := rfl, fits := hfits }
      show t.frames = t.sent ++ [f] ++ t.packetBuffer ++ rest
      rw [h.frames, hnil]
      simp
    | false =>
      refine ⟨?_, rfl, hfits, h.empty, h.attached, fun _ => rfl⟩
      show t.frames = t.sent ++ (t.packetBuffer ++ [f]) ++ rest
      rw [h.frames]
      simp

theorem InOrder.retransmit (h : InOrder t rest) (accepted : Bool) :
    InOrder (t.retransmit accepted) rest := by
  unfold EtherTap.retransmit
  split
  · next hnil => exact { h with waits := fun hne => absurd hnil hne }
  · next packet queue hqueue =>
      split
      · refine { h with frames := ?_, waits := fun hne => ?_ }
        · rw [h.frames, hqueue]
          simp
        · cases queue with
          | nil => exact absurd rfl hne
          | cons _ _ => rfl
      · exact h

theorem inOrder_of_reachable (h : (machine bufsz).ReachableBy OneByOne t) :
    ∃ rest, InOrder t rest := by
  refine h.invariant (I := fun t => ∃ rest, InOrder t rest) (fun t hstart => ?_)
    fun t input t' hinv hen hone hcall => ?_
  · obtain ⟨hbufsz, frames, hfits, rfl⟩ := hstart
    refine ⟨frames, rfl, rfl, fun f hf => ?_, ⟨rfl, rfl⟩, rfl, fun hne => absurd rfl hne⟩
    exact ⟨(hfits f hf).1, Nat.lt_of_le_of_lt (hfits f hf).2 hbufsz⟩
  · obtain ⟨rest, hinv⟩ := hinv
    cases hcall
    cases input with
    | poll n answers => exact hinv.poll hen hone
    | retransmit accepted => exact ⟨rest, hinv.retransmit accepted⟩

end EtherTap

open EtherTap

def twoFrames : EtherTap := { frames := [[1], [2]], stream := [[1], [2]].flatMap frame }

theorem twoFrames_reachable (C : EtherTap → TapInput → Prop) :
    (machine 64).ReachableBy C twoFrames :=
  .startup ⟨by decide, [[1], [2]], by decide, rfl⟩

end PardG5V
