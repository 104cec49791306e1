import PardG5V.Dram.Queues

/-!
# The statistics of the LDoms

The bursts of a request are counted in the row of its LDom when they come, when the write queue
takes them in, and when they are served. An LDom without a row is taken for LDom 0. A burst that
is merged into an entry of another LDom is counted as merged for its own LDom, and the entry stays
with the other one.

Results: `ldom_accounting`, `unknown_ldom_counts_for_zero`.
-/

namespace PardG5V

open Prog FrontLemmas Relation

variable {cfg : DramConfig}

/-! ## Rows -/

/-- The bursts of one direction in a row: those that came, those that the write queue took
in, and the bytes of those that were served. -/
structure Tally where
  bursts : Nat
  absorbed : Nat
  bytes : Nat

namespace Tally

/-- The write queue answers a burst or takes it into an entry. -/
def absorb (t : Tally) : Tally := { t with bursts := t.bursts + 1, absorbed := t.absorbed + 1 }

def arrive (t : Tally) : Tally := { t with bursts := t.bursts + 1 }

def serve (t : Tally) (size : Nat) : Tally := { t with bytes := t.bytes + size }

/-- With `queued` bursts in the queue, no burst is lost and none is counted twice. -/
def Balanced (t : Tally) (size queued : Nat) : Prop :=
  ∃ served, t.bursts = t.absorbed + queued + served ∧ t.bytes = served * size ∧
    (size = 0 → queued + served = 0)

variable {t : Tally} {size queued : Nat}

theorem Balanced.absorb (h : t.Balanced size queued) : t.absorb.Balanced size queued := by
  obtain ⟨served, hbursts, hrest⟩ := h
  refine ⟨served, ?_, hrest⟩
  show t.bursts + 1 = t.absorbed + 1 + queued + served
  rw [hbursts, Nat.add_right_comm t.absorbed 1, Nat.add_right_comm _ 1]

theorem Balanced.arrive (h : t.Balanced size queued) (hsize : size ≠ 0) :
    t.arrive.Balanced size (queued + 1) := by
  obtain ⟨served, hbursts, hbytes, -⟩ := h
  refine ⟨served, ?_, hbytes, fun h => absurd h hsize⟩
  show t.bursts + 1 = t.absorbed + (queued + 1) + served
  rw [hbursts, ← Nat.add_assoc, Nat.add_right_comm _ 1]

theorem Balanced.serve (h : t.Balanced size (queued + 1)) :
    (t.serve size).Balanced size queued := by
  obtain ⟨served, hbursts, hbytes, hzero⟩ := h
  refine ⟨served + 1, ?_, ?_, fun hsize => ?_⟩
  · show t.bursts = t.absorbed + queued + (served + 1)
    rw [hbursts, ← Nat.add_assoc, Nat.add_right_comm _ 1, Nat.add_assoc]
  · show t.bytes + size = (served + 1) * size
    rw [hbytes, Nat.succ_mul]
  · exact absurd (hzero hsize) (Nat.ne_of_gt (Nat.lt_of_lt_of_le (Nat.succ_pos _)
      (Nat.le_add_right _ _)))

theorem Balanced.eq (h : t.Balanced size queued) :
    t.absorbed ≤ t.bursts ∧ t.bursts - t.absorbed = queued + t.bytes / size := by
  obtain ⟨served, hbursts, hbytes, hzero⟩ := h
  rw [Nat.add_assoc] at hbursts
  have hserved : served * size / size = served := by
    rcases Nat.eq_zero_or_pos size with hsize | hpos
    · rw [hsize, Nat.div_zero]
      exact ((Nat.add_eq_zero_iff.mp (hzero hsize)).2).symm
    · exact Nat.mul_div_cancel served hpos
  refine ⟨hbursts ▸ Nat.le_add_right _ _, ?_⟩
  rw [hbursts, Nat.add_sub_cancel_left, hbytes, hserved]

end Tally

namespace DRAMCtrlStats

def reads (stats : DRAMCtrlStats) : Tally :=
  ⟨stats.readBursts, stats.servicedByWrQ, stats.bytesReadDRAM⟩

def writes (stats : DRAMCtrlStats) : Tally :=
  ⟨stats.writeBursts, stats.mergedWrBursts, stats.bytesWritten⟩

end DRAMCtrlStats

def waiting (queue : List (DRAMPacket cfg)) (d : Fin statsRows) : Nat :=
  queue.countP fun p => decide (p.ldom.val = d.val)

/-! ## The machine -/

/-- The statistics, and the queues whose bursts they count. -/
structure DramBooks (cfg : DramConfig) where
  stats : Fin statsRows → DRAMCtrlStats
  readQueue : List (DRAMPacket cfg)
  writeQueue : List (DRAMPacket cfg)

def Dram.books (s : Dram cfg) : DramBooks cfg := ⟨s.stats, s.readQueue, s.writeQueue⟩

/-- A change in the row of the LDom of a tag. -/
def DramBooks.count (b : DramBooks cfg) (tag : BitVec 64) (f : DRAMCtrlStats → DRAMCtrlStats) :
    DramBooks cfg :=
  { b with stats := fun row =>
      if row = statsRow (qosTagToLDomID tag) then f (b.stats row) else b.stats row }

/-- What can be counted for a tag. -/
inductive BooksStep (tag : BitVec 64) (b : DramBooks cfg) : DramBooks cfg → Prop
  | note {f : DRAMCtrlStats → DRAMCtrlStats} (hreads : ∀ stats, (f stats).reads = stats.reads)
      (hwrites : ∀ stats, (f stats).writes = stats.writes) : BooksStep tag b (b.count tag f)
  | found {f : DRAMCtrlStats → DRAMCtrlStats}
      (hreads : ∀ stats, (f stats).reads = stats.reads.absorb)
      (hwrites : ∀ stats, (f stats).writes = stats.writes) : BooksStep tag b (b.count tag f)
  | queued {f : DRAMCtrlStats → DRAMCtrlStats} {p : DRAMPacket cfg} (hsize : cfg.burstSize ≠ 0)
      (htag : p.qosTag = tag) (hreads : ∀ stats, (f stats).reads = stats.reads.arrive)
      (hwrites : ∀ stats, (f stats).writes = stats.writes) :
      BooksStep tag b ({ b with readQueue := b.readQueue ++ [p] }.count tag f)
  | merged {f : DRAMCtrlStats → DRAMCtrlStats} {writeQueue : List (DRAMPacket cfg)}
      (htags : ∀ d, waiting writeQueue d = waiting b.writeQueue d)
      (hreads : ∀ stats, (f stats).reads = stats.reads)
      (hwrites : ∀ stats, (f stats).writes = stats.writes.absorb) :
      BooksStep tag b ({ b with writeQueue }.count tag f)
  | added {f : DRAMCtrlStats → DRAMCtrlStats} {p : DRAMPacket cfg} (hsize : cfg.burstSize ≠ 0)
      (htag : p.qosTag = tag) (hreads : ∀ stats, (f stats).reads = stats.reads)
      (hwrites : ∀ stats, (f stats).writes = stats.writes.arrive) :
      BooksStep tag b ({ b with writeQueue := b.writeQueue ++ [p] }.count tag f)
  | read {f : DRAMCtrlStats → DRAMCtrlStats} {p : DRAMPacket cfg} {rest : List (DRAMPacket cfg)}
      (htag : p.qosTag = tag) (hqueue : (p :: rest).Perm b.readQueue)
      (hreads : ∀ stats, (f stats).reads = stats.reads.serve cfg.burstSize)
      (hwrites : ∀ stats, (f stats).writes = stats.writes) :
      BooksStep tag b ({ b with readQueue := rest }.count tag f)
  | written {f : DRAMCtrlStats → DRAMCtrlStats} {p : DRAMPacket cfg}
      {rest : List (DRAMPacket cfg)} (htag : p.qosTag = tag)
      (hqueue : (p :: rest).Perm b.writeQueue)
      (hreads : ∀ stats, (f stats).reads = stats.reads)
      (hwrites : ∀ stats, (f stats).writes = stats.writes.serve cfg.burstSize) :
      BooksStep tag b ({ b with writeQueue := rest }.count tag f)

abbrev BooksSteps (tag : BitVec 64) : DramBooks cfg → DramBooks cfg → Prop :=
  ReflTransGen (BooksStep tag)

/-- What one input counts: a request counts for its tag, and the request event for that of
the packet that leaves its queue. -/
inductive BooksCall (b : DramBooks cfg) : DramInput → DramBooks cfg → Prop
  | same {input : DramInput} : BooksCall b input b
  | request {pkt : Packet} {b' : DramBooks cfg} (hsteps : BooksSteps pkt.qosTag b b') :
      BooksCall b (.timingReq pkt) b'
  | serve {p : DRAMPacket cfg} {b' : DramBooks cfg}
      (hleft : (p :: b'.readQueue).Perm b.readQueue ∨ (p :: b'.writeQueue).Perm b.writeQueue)
      (hstep : BooksStep p.qosTag b b') : BooksCall b (.event .nextReq) b'

/-! ## The balance -/

namespace BooksLemmas

variable {size queued : Nat}

theorem ldom_iff (p : DRAMPacket cfg) (d : Fin statsRows) :
    p.ldom.val = d.val ↔ d = statsRow (qosTagToLDomID p.qosTag) := by
  unfold statsRow
  rw [dif_pos p.ldom_lt, Fin.ext_iff]
  exact eq_comm

variable {p : DRAMPacket cfg} {queue rest : List (DRAMPacket cfg)} {d : Fin statsRows}

theorem waiting_perm (h : queue.Perm rest) : waiting queue d = waiting rest d := h.countP_eq _

theorem waiting_cons (hd : d = statsRow (qosTagToLDomID p.qosTag)) :
    waiting (p :: rest) d = waiting rest d + 1 :=
  List.countP_cons_of_pos (decide_eq_true ((ldom_iff p d).mpr hd))

theorem waiting_cons_other (hd : d ≠ statsRow (qosTagToLDomID p.qosTag)) :
    waiting (p :: rest) d = waiting rest d :=
  List.countP_cons_of_neg fun h => hd ((ldom_iff p d).mp (of_decide_eq_true h))

variable {b : DramBooks cfg} {tag : BitVec 64} {f : DRAMCtrlStats → DRAMCtrlStats}
  {tally : DRAMCtrlStats → Tally}

theorem tally_keep (hf : ∀ stats, tally (f stats) = tally stats) :
    tally ((b.count tag f).stats d) = tally (b.stats d) := by
  unfold DramBooks.count
  dsimp only
  split
  · exact hf _
  · rfl

theorem tally_count (change : Tally → Tally) (hf : ∀ stats, tally (f stats) = change (tally stats))
    (hrow : d = statsRow (qosTagToLDomID tag) → (change (tally (b.stats d))).Balanced size queued)
    (hother : d ≠ statsRow (qosTagToLDomID tag) → (tally (b.stats d)).Balanced size queued) :
    (tally ((b.count tag f).stats d)).Balanced size queued := by
  unfold DramBooks.count
  dsimp only
  split
  · next hd =>
      rw [hf]
      exact hrow hd
  · next hd => exact hother hd

theorem tally_absorb (hf : ∀ stats, tally (f stats) = (tally stats).absorb)
    (h : (tally (b.stats d)).Balanced size queued) :
    (tally ((b.count tag f).stats d)).Balanced size queued :=
  tally_count .absorb hf (fun _ => h.absorb) fun _ => h

theorem tally_arrive (hsize : size ≠ 0) (htag : p.qosTag = tag)
    (hf : ∀ stats, tally (f stats) = (tally stats).arrive)
    (h : (tally (b.stats d)).Balanced size (waiting queue d)) :
    (tally ((b.count tag f).stats d)).Balanced size (waiting (queue ++ [p]) d) := by
  subst htag
  rw [waiting_perm (List.perm_append_singleton p queue)]
  refine tally_count .arrive hf (fun hd => ?_) fun hd => ?_
  · rw [waiting_cons hd]
    exact h.arrive hsize
  · rwa [waiting_cons_other hd]

theorem tally_serve (htag : p.qosTag = tag) (hqueue : (p :: rest).Perm queue)
    (hf : ∀ stats, tally (f stats) = (tally stats).serve size)
    (h : (tally (b.stats d)).Balanced size (waiting queue d)) :
    (tally ((b.count tag f).stats d)).Balanced size (waiting rest d) := by
  subst htag
  rw [← waiting_perm hqueue] at h
  refine tally_count (·.serve size) hf (fun hd => ?_) fun hd => ?_
  · rw [waiting_cons hd] at h
    exact h.serve
  · rwa [waiting_cons_other hd] at h

end BooksLemmas

open BooksLemmas

namespace DramBooks

/-- In every row no burst is lost and none is counted twice. -/
structure Balanced (b : DramBooks cfg) : Prop where
  reads : ∀ d, (b.stats d).reads.Balanced cfg.burstSize (waiting b.readQueue d)
  writes : ∀ d, (b.stats d).writes.Balanced cfg.burstSize (waiting b.writeQueue d)

variable {b b' : DramBooks cfg} {tag : BitVec 64} {d : Fin statsRows}

theorem Balanced.step (h : b.Balanced) (hstep : BooksStep tag b b') : b'.Balanced := by
  have hkeepReads {c : DramBooks cfg} {f : DRAMCtrlStats → DRAMCtrlStats}
      (hf : ∀ stats, (f stats).reads = stats.reads) (hstats : c.stats = b.stats) (d) :
      ((c.count tag f).stats d).reads.Balanced cfg.burstSize (waiting b.readQueue d) := by
    rw [tally_keep hf, hstats]
    exact h.reads d
  have hkeepWrites {c : DramBooks cfg} {f : DRAMCtrlStats → DRAMCtrlStats}
      (hf : ∀ stats, (f stats).writes = stats.writes) (hstats : c.stats = b.stats) (d) :
      ((c.count tag f).stats d).writes.Balanced cfg.burstSize (waiting b.writeQueue d) := by
    rw [tally_keep hf, hstats]
    exact h.writes d
  cases hstep with
  | note hreads hwrites => exact ⟨hkeepReads hreads rfl, hkeepWrites hwrites rfl⟩
  | found hreads hwrites =>
    exact ⟨fun d => tally_absorb hreads (h.reads d), hkeepWrites hwrites rfl⟩
  | queued hsize htag hreads hwrites =>
    exact ⟨fun d => tally_arrive hsize htag hreads (h.reads d), hkeepWrites hwrites rfl⟩
  | merged htags hreads hwrites =>
    exact ⟨hkeepReads hreads rfl, fun d => tally_absorb hwrites (htags d ▸ h.writes d)⟩
  | added hsize htag hreads hwrites =>
    exact ⟨hkeepReads hreads rfl, fun d => tally_arrive hsize htag hwrites (h.writes d)⟩
  | read htag hqueue hreads hwrites =>
    exact ⟨fun d => tally_serve htag hqueue hreads (h.reads d), hkeepWrites hwrites rfl⟩
  | written htag hqueue hreads hwrites =>
    exact ⟨hkeepReads hreads rfl, fun d => tally_serve htag hqueue hwrites (h.writes d)⟩

theorem Balanced.steps (h : b.Balanced) (hsteps : BooksSteps tag b b') : b'.Balanced := by
  induction hsteps with
  | refl => exact h
  | tail _ hstep ih => exact ih.step hstep

/-- Nothing is counted for another tag. -/
theorem stats_step (hd : d ≠ statsRow (qosTagToLDomID tag)) (hstep : BooksStep tag b b') :
    b'.stats d = b.stats d := by
  cases hstep <;> exact if_neg hd

theorem stats_steps (hd : d ≠ statsRow (qosTagToLDomID tag)) (hsteps : BooksSteps tag b b') :
    b'.stats d = b.stats d := by
  induction hsteps with
  | refl => rfl
  | tail _ hstep ih => exact (stats_step hd hstep).trans ih

end DramBooks

/-! ## Inputs -/

namespace BooksLemmas

variable {s s' : Dram cfg} {pkt : Packet} {size pktCount cnt : Nat} {p : DRAMPacket cfg}
  {helper : Option Nat} {queue rest : List (DRAMPacket cfg)} {rowHit : Bool} {cmdAt : Tick}

theorem books_of_front (h : s.SameFront s') : s'.books = s.books := by
  have hstats : s'.stats = s.stats := congrArg DramFront.stats h
  have hread : s'.readQueue = s.readQueue := congrArg DramFront.readQueue h
  have hwrite : s'.writeQueue = s.writeQueue := congrArg DramFront.writeQueue h
  unfold Dram.books
  rw [hstats, hread, hwrite]

theorem books_ignores : Dram.Ignores (@Dram.books cfg) := ⟨fun _ _ _ _ _ _ => rfl, fun _ => rfl⟩

section

variable (s : Dram cfg)

@[simp] theorem accessAndRespond_books (pkt : Packet) (latency : Tick) :
    (s.accessAndRespond pkt latency).books = s.books := by
  unfold Dram.accessAndRespond
  split <;> rfl

@[simp] theorem turnToWrites_books : s.turnToWrites.books = s.books := by
  unfold Dram.turnToWrites
  split <;> rfl

@[simp] theorem turnToReads_books : s.turnToReads.books = s.books := by
  unfold Dram.turnToReads
  split <;> rfl

@[simp] theorem atRequest_books : s.atRequest.books = s.books := by
  obtain ⟨_, _, _, heq⟩ := atRequest_eq s
  rw [heq]
  rfl

theorem responded_books (pkt : DRAMPacket cfg) (rest : List (DRAMPacket cfg))
    (complete : Bool) (helpers : List BurstHelper) :
    (s.responded pkt rest complete helpers).books = s.books := by
  cases complete with
  | false => rfl
  | true => exact accessAndRespond_books { s with respondEvent := none, helpers } pkt.pkt _

theorem count_count (b : DramBooks cfg) (tag : BitVec 64) (f g : DRAMCtrlStats → DRAMCtrlStats) :
    (b.count tag f).count tag g = b.count tag (g ∘ f) := by
  unfold DramBooks.count
  congr 1
  funext row
  dsimp only
  split <;> rfl

theorem note_books {tag : BitVec 64} (f : DRAMCtrlStats → DRAMCtrlStats)
    (hreads : ∀ stats, (f stats).reads = stats.reads)
    (hwrites : ∀ stats, (f stats).writes = stats.writes) :
    BooksStep tag s.books (s.count tag f).books := .note hreads hwrites

theorem arrived_books (pkt : Packet) : BooksSteps pkt.qosTag s.books (s.arrived pkt).books := by
  unfold Dram.arrived
  split
  · exact .refl
  · exact .single (note_books s (fun stats =>
      { stats with totGap := stats.totGap + (s.curTick - s.prevArrival) }) (fun _ => rfl)
      fun _ => rfl)

end

variable {addr : Addr}

theorem burstSize_of_decodeAddr {isRead : Bool}
    (h : s.decodeAddr pkt addr size isRead = .ok p) : cfg.burstSize ≠ 0 := by
  rcases except_ite_eq_ok.mp h with ⟨_, h⟩ | ⟨hgeometry, _⟩
  · cases h
  · exact fun hzero => hgeometry (.inl hzero)

theorem burstFound_books (s : Dram cfg) (pkt : Packet) :
    BooksStep pkt.qosTag s.books (s.burstFound pkt).books := by
  show BooksStep _ _ ((s.books.count pkt.qosTag
    fun stats => { stats with readBursts := stats.readBursts + 1 }).count pkt.qosTag
    fun stats => { stats with
      servicedByWrQ := stats.servicedByWrQ + 1
      bytesReadWrQ := stats.bytesReadWrQ + cfg.burstSize })
  rw [count_count]
  exact .found (fun _ => rfl) fun _ => rfl

theorem burstQueued_books (hdecode : s.decodeAddr pkt addr size true = .ok p) :
    BooksStep pkt.qosTag s.books (s.burstQueued pkt pktCount helper p).books := by
  have htag : p.qosTag = pkt.qosTag := (decodeAddr_eq_ok hdecode).qosTag
  show BooksStep _ _ (({ s.books with
    readQueue := s.readQueue ++ [{ p with burstHelper := s.helperFor pktCount helper }] }.count
      pkt.qosTag fun stats => { stats with readBursts := stats.readBursts + 1 }).count pkt.qosTag
    fun stats => { stats with
      rdQLen := (s.burstQueued pkt pktCount helper p).readQueue.length + s.respQueue.length })
  rw [count_count]
  exact .queued (burstSize_of_decodeAddr hdecode) htag (fun _ => rfl) fun _ => rfl

theorem burstAdded_books (hdecode : s.decodeAddr pkt addr size false = .ok p) :
    BooksStep pkt.qosTag s.books (s.burstAdded pkt p).books := by
  have htag : p.qosTag = pkt.qosTag := (decodeAddr_eq_ok hdecode).qosTag
  show BooksStep _ _ (({ s.books with writeQueue := s.writeQueue ++ [p] }.count
    pkt.qosTag fun stats => { stats with writeBursts := stats.writeBursts + 1 }).count pkt.qosTag
    fun stats => { stats with wrQLen := (s.writeQueue ++ [p]).length })
  rw [count_count]
  exact .added (burstSize_of_decodeAddr hdecode) htag (fun _ => rfl) fun _ => rfl

/-- An entry that takes in a burst stays with its LDom. -/
theorem waiting_merge {queue' : List (DRAMPacket cfg)}
    (h : mergeWrite cfg addr size queue = some queue') (d : Fin statsRows) :
    waiting queue' d = waiting queue d := by
  obtain ⟨before, w, w', after, rfl, rfl, hmerge, -⟩ := mergeWrite_eq h
  obtain ⟨addr', size', rfl⟩ := mergeInto_eq hmerge
  unfold waiting
  rw [List.countP_append, List.countP_append, List.countP_cons, List.countP_cons]
  rfl

theorem burstMerged_books (hmerge : mergeWrite cfg addr size s.writeQueue = some queue) :
    BooksStep pkt.qosTag s.books (s.burstMerged pkt queue).books := by
  show BooksStep _ _ (({ s.books with writeQueue := queue }.count
    pkt.qosTag fun stats => { stats with writeBursts := stats.writeBursts + 1 }).count pkt.qosTag
    fun stats => { stats with mergedWrBursts := stats.mergedWrBursts + 1 })
  rw [count_count]
  exact .merged (waiting_merge hmerge) (fun _ => rfl) fun _ => rfl

theorem addReadBursts_books {serviced : Nat} {r : Nat × Option Nat}
    (h : addReadBursts pkt pktCount cnt addr serviced helper s = .ok (r, s')) :
    BooksSteps pkt.qosTag s.books s'.books := by
  induction cnt generalizing addr serviced helper s with
  | zero =>
    obtain ⟨-, rfl⟩ := pure_eq_ok.mp h
    exact .refl
  | succ cnt ih =>
    obtain ⟨-, ⟨-, h⟩ | ⟨-, p, hdecode, -, h⟩⟩ := addReadBursts_succ h
    · exact .head (burstFound_books s pkt) (ih h)
    · exact .head (burstQueued_books hdecode) (ih h)

theorem addWriteBursts_books (h : addWriteBursts pkt cnt addr s = .ok ((), s')) :
    BooksSteps pkt.qosTag s.books s'.books := by
  induction cnt generalizing addr s with
  | zero =>
    obtain ⟨-, rfl⟩ := pure_eq_ok.mp h
    exact .refl
  | succ cnt ih =>
    obtain ⟨-, ⟨queue, hmerge, h⟩ | ⟨-, p, hdecode, -, h⟩⟩ := addWriteBursts_succ h
    · exact .head (burstMerged_books hmerge) (ih h)
    · exact .head (burstAdded_books hdecode) (ih h)

theorem acceptRead_books (s : Dram cfg) (pkt : Packet) (serviced : Nat) (helper : Option Nat) :
    BooksStep pkt.qosTag s.books (s.acceptRead pkt serviced helper).books := by
  have hadded : (s.readAdded pkt serviced helper).books = s.books := by
    unfold Dram.readAdded
    split
    · exact accessAndRespond_books s pkt _
    · exact books_ignores.requestNow _
  rw [← hadded]
  exact note_books _ (fun stats => { stats with
    readReqs := stats.readReqs + 1
    bytesReadSys := stats.bytesReadSys + pkt.size }) (fun _ => rfl) fun _ => rfl

theorem acceptWrite_books (s : Dram cfg) (pkt : Packet) :
    BooksStep pkt.qosTag s.books (s.acceptWrite pkt).books := by
  have hadded : (s.accessAndRespond pkt cfg.frontendLatency).requestNow.books = s.books := by
    rw [books_ignores.requestNow, accessAndRespond_books]
  rw [← hadded]
  exact note_books _ (fun stats => { stats with
    writeReqs := stats.writeReqs + 1
    bytesWrittenSys := stats.bytesWrittenSys + pkt.size }) (fun _ => rfl) fun _ => rfl

theorem refuseRead_books (s : Dram cfg) (pkt : Packet) :
    BooksStep pkt.qosTag (s.arrived pkt).books (s.refuseRead pkt).books :=
  note_books { s.arrived pkt with retryRdReq := true }
    (fun stats => { stats with numRdRetry := stats.numRdRetry + 1 }) (fun _ => rfl) fun _ => rfl

theorem refuseWrite_books (s : Dram cfg) (pkt : Packet) :
    BooksStep pkt.qosTag (s.arrived pkt).books (s.refuseWrite pkt).books :=
  note_books { s.arrived pkt with retryWrReq := true }
    (fun stats => { stats with numWrRetry := stats.numWrRetry + 1 }) (fun _ => rfl) fun _ => rfl

theorem answerOther_books (s : Dram cfg) (pkt : Packet) :
    BooksStep pkt.qosTag (s.arrived pkt).books (s.answerOther pkt).books := by
  unfold Dram.answerOther
  rw [accessAndRespond_books]
  exact note_books _ (fun stats =>
    { stats with neitherReadNorWrite := stats.neitherReadNorWrite + 1 }) (fun _ => rfl) fun _ => rfl

theorem servedRead_books (hread : p.isRead = true) (hqueue : (p :: rest).Perm s.readQueue) :
    BooksStep p.qosTag s.books
      ({ s.atRequest with readQueue := rest }.served p rowHit cmdAt).books := by
  have hbefore : Dram.books { s.atRequest with readQueue := rest } =
      { s.books with readQueue := rest } := by
    show ({ s.atRequest.books with readQueue := rest } : DramBooks cfg) = _
    rw [atRequest_books]
  show BooksStep _ _ ((Dram.books { s.atRequest with readQueue := rest }).count p.qosTag
    (·.accessed p rowHit cmdAt (cfg.burstEnd cmdAt)))
  rw [hbefore]
  refine .read rfl hqueue (fun stats => ?_) fun stats => ?_
  · unfold DRAMCtrlStats.accessed
    rw [if_pos hread]
    rfl
  · unfold DRAMCtrlStats.accessed
    rw [if_pos hread]
    rfl

theorem servedWrite_books (hread : p.isRead = false) (hqueue : (p :: rest).Perm s.writeQueue) :
    BooksStep p.qosTag s.books
      ({ s.atRequest with writeQueue := rest }.served p rowHit cmdAt).books := by
  have hbefore : Dram.books { s.atRequest with writeQueue := rest } =
      { s.books with writeQueue := rest } := by
    show ({ s.atRequest.books with writeQueue := rest } : DramBooks cfg) = _
    rw [atRequest_books]
  show BooksStep _ _ ((Dram.books { s.atRequest with writeQueue := rest }).count p.qosTag
    (·.accessed p rowHit cmdAt (cfg.burstEnd cmdAt)))
  rw [hbefore]
  refine .written rfl hqueue (fun stats => ?_) fun stats => ?_
  · unfold DRAMCtrlStats.accessed
    rw [hread]
    rfl
  · unfold DRAMCtrlStats.accessed
    rw [hread]
    rfl

end BooksLemmas

variable {input : DramInput} {s s' : Dram cfg}

/-- Every step of the front counts in one row only. -/
theorem FrontStep.books {t : Dram cfg} (hsorted : s.queues.Sorted)
    (h : FrontStep s input t) : BooksCall s.books input t.books := by
  have hsame {t : Dram cfg} (heq : t.books = s.books) : BooksCall s.books input t.books :=
    heq ▸ .same
  cases h with
  | inhibited | machine | set | refreshEnd | advance => exact .same
  | refuseRead => exact .request (.tail (arrived_books s _) (refuseRead_books s _))
  | refuseWrite => exact .request (.tail (arrived_books s _) (refuseWrite_books s _))
  | read _ _ _ _ hloop =>
    exact .request (.tail ((arrived_books s _).trans (addReadBursts_books hloop))
      (acceptRead_books _ _ _ _))
  | write _ _ _ _ _ hloop =>
    exact .request (.tail ((arrived_books s _).trans (addWriteBursts_books hloop))
      (acceptWrite_books _ _))
  | other => exact .request (.tail (arrived_books s _) (answerOther_books s _))
  | drain => exact hsame (books_ignores.drain s)
  | wait => exact hsame (atRequest_books s)
  | turn => exact hsame ((books_ignores.again _).trans (atRequest_books s))
  | sleep => exact hsame ((books_ignores.sleeping _).trans (atRequest_books s))
  | @serveRead pkt rest rowHit cmdAt _ _ hchoose =>
    have hperm : (pkt :: rest).Perm s.readQueue := hchoose ▸ chooseNext_perm _ _
    have hread : pkt.isRead = true :=
      hsorted.reads pkt (hperm.mem_iff.mp (List.mem_cons_self ..))
    rw [books_ignores.again, turnToWrites_books]
    exact .serve (.inl hperm) (servedRead_books hread hperm)
  | @serveWrite pkt rest rowHit cmdAt _ _ hchoose =>
    have hperm : (pkt :: rest).Perm s.writeQueue := hchoose ▸ chooseNext_perm _ _
    have hread : pkt.isRead = false :=
      hsorted.writes pkt (hperm.mem_iff.mp (List.mem_cons_self ..))
    rw [books_ignores.again, turnToReads_books]
    exact .serve (.inr hperm) (servedWrite_books hread hperm)
  | respond =>
    refine hsame ?_
    rw [books_ignores.retryRead, books_ignores.nextResponse, responded_books]

theorem call_booksCall (hsorted : s.queues.Sorted)
    (hen : s.Enabled input) (h : DramM.call input s = .ok ((), s')) :
    BooksCall s.books input s'.books := by
  obtain ⟨t, hstep, hfront⟩ := call_frontStep hen h
  rw [books_of_front hfront]
  exact hstep.books hsorted

/-! ## Runs -/

theorem DramBooks.Balanced.call {b b' : DramBooks cfg} (h : b.Balanced)
    (hcall : BooksCall b input b') : b'.Balanced := by
  cases hcall with
  | same => exact h
  | request hsteps => exact h.steps hsteps
  | serve _ hstep => exact h.step hstep

theorem Dram.Reachable.balanced {P : Dram cfg → DramInput → Prop}
    (h : s.Reachable P) : s.books.Balanced := by
  refine h.induct (I := fun s => s.books.Balanced) (fun _ => ?_)
    fun s input s' hs ih hen _ hcall => ?_
  · exact ⟨fun _ => ⟨0, rfl, (Nat.zero_mul _).symm, fun _ => rfl⟩,
      fun _ => ⟨0, rfl, (Nat.zero_mul _).symm, fun _ => rfl⟩⟩
  · exact ih.call (call_booksCall hs.sorted hen hcall)

/-- The input concerns the row `d`: it is a request that is counted there, or the event
that serves a burst of the LDom. -/
def Dram.ChargedTo (s : Dram cfg) : DramInput → Dram cfg → Fin statsRows → Prop
  | .timingReq pkt, _, d => d = statsRow (qosTagToLDomID pkt.qosTag)
  | .event .nextReq, s', d => ∃ p : DRAMPacket cfg, p.ldom.val = d.val ∧
      ((p :: s'.readQueue).Perm s.readQueue ∨ (p :: s'.writeQueue).Perm s.writeQueue)
  | _, _, _ => False

theorem chargedTo_of_call {d : Fin statsRows}
    (hcall : BooksCall s.books input s'.books) (hne : s'.stats d ≠ s.stats d) :
    s.ChargedTo input s' d := by
  generalize hb' : s'.books = b' at hcall
  cases hcall with
  | same => exact absurd (congrFun (congrArg DramBooks.stats hb') d) hne
  | request hsteps =>
    subst hb'
    by_contra hd
    exact hne (DramBooks.stats_steps hd hsteps)
  | @serve p _ hleft hstep =>
    subst hb'
    refine ⟨p, ?_, hleft⟩
    by_contra hd
    exact hne (DramBooks.stats_step (fun heq => hd ((ldom_iff p d).mpr heq)) hstep)

/-- In every run, for every LDom that has a row: the bursts that came are those that the write queue
took in, that wait and that were served, and its row changes only with its own requests and
bursts. -/
theorem ldom_accounting {s : Dram cfg} (h : s.Reachable fun _ _ => True) (d : Fin statsRows) :
    ((s.stats d).servicedByWrQ ≤ (s.stats d).readBursts ∧
      (s.stats d).readBursts - (s.stats d).servicedByWrQ =
        waiting s.readQueue d + (s.stats d).bytesReadDRAM / cfg.burstSize) ∧
    ((s.stats d).mergedWrBursts ≤ (s.stats d).writeBursts ∧
      (s.stats d).writeBursts - (s.stats d).mergedWrBursts =
        waiting s.writeQueue d + (s.stats d).bytesWritten / cfg.burstSize) ∧
    ∀ input s', s.Enabled input → DramM.call input s = .ok ((), s') → s'.stats d ≠ s.stats d →
      s.ChargedTo input s' d :=
  ⟨(h.balanced.reads d).eq, (h.balanced.writes d).eq,
    fun _ _ hen hcall hne => chargedTo_of_call (call_booksCall h.sorted hen hcall) hne⟩

/-- A write of LDom 1 is merged with an earlier one and answers a read of LDom 2, and a read
of LDom 1 is served. -/
theorem ldom_accounting_two_ldoms : ∃ s : Dram .oneBank, s.Reachable (fun _ _ => True) ∧
      ((s.stats 1).readBursts, (s.stats 1).bytesReadDRAM) = (2, 64) ∧
      ((s.stats 1).writeBursts, (s.stats 1).mergedWrBursts) = (2, 1) ∧
      ((s.stats 2).readBursts, (s.stats 2).servicedByWrQ) = (1, 1) ∧
      (s.stats 1).readBursts - (s.stats 1).servicedByWrQ =
        waiting s.readQueue 1 + (s.stats 1).bytesReadDRAM / 64 := by
  obtain ⟨s, hs, hread, hwritten, hfound⟩ := Dram.exists_reachable (P := fun _ _ => True) 0
    [.timingReq (ldomReq .WriteReq 1 1), .timingReq (ldomReq .WriteReq 1 1),
      .timingReq (ldomReq .ReadReq 2 1), .timingReq (ldomReq .ReadReq 1 2),
      .timingReq (ldomReq .ReadReq 1 3), .event .nextReq]
    (fun s : Dram .oneBank => ((s.stats 1).readBursts, (s.stats 1).bytesReadDRAM) = (2, 64) ∧
      ((s.stats 1).writeBursts, (s.stats 1).mergedWrBursts) = (2, 1) ∧
      ((s.stats 2).readBursts, (s.stats 2).servicedByWrQ) = (1, 1)) (by decide +kernel)
  exact ⟨s, hs, hread, hwritten, hfound, (ldom_accounting hs 1).1.2⟩

/-- A request of an LDom without a row changes the row of LDom 0. -/
theorem unknown_ldom_counts_for_zero :
    ∃ (s s' : Dram .oneBank) (pkt : Packet), s.Reachable (fun _ _ => True) ∧
      s.Enabled (.timingReq pkt) ∧ DramM.call (.timingReq pkt) s = .ok ((), s') ∧
      qosTagToLDomID pkt.qosTag = 40 ∧ s'.stats 0 ≠ s.stats 0 := by
  let pkt : Packet := .ofRequest { paddr := 0, size := 64, qosTag := 40 } .UpgradeReq
  obtain ⟨s, hs, hen, htest⟩ := Dram.exists_reachable (P := fun _ _ => True) 0 []
    (fun s : Dram .oneBank => s.Enabled (.timingReq pkt) ∧
      (match DramM.call (.timingReq pkt) s with
        | .ok (_, s') => s'.stats 0 != s.stats 0
        | .error _ => false) = true) (by decide +kernel)
  split at htest
  · next s' hcall => exact ⟨s, s', pkt, hs, hen, hcall, by decide, bne_iff_ne.mp htest⟩
  · cases htest

end PardG5V
