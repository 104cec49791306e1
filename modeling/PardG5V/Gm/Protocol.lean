import PardG5V.Gm.ControlNet
import PardG5V.Lib.Machine

/-!
# The register protocol of a control plane connector

A driver writes the LDom id, the destination address and the data into the registers of the
connector, and then a command. The resource should be called once for each command written, with
what was last written, and reading a register should be harmless. The code attaches the command to
touching the command register, so a driver that reads a command back runs it again.

Results: `followsProtocol_iff`, `read_back_sets_again`.
-/

namespace PardG5V

open Prog Bytes

variable {ρ : Type}

/-! ## Reading a log

A log is read from its latest event backwards, with the event that came directly
after the one at hand. -/

/-- `P next x past` for every event `x` of a log, where `past` came before it and
`next` directly after it. -/
def Everywhere {ε : Type} (P : Option ε → ε → List ε → Prop) : Option ε → List ε → Prop
  | _, [] => True
  | next, x :: past => P next x past ∧ Everywhere P (some x) past

/-- What the command register keeps of a written command. -/
def keptCommand (bytes : List Byte) : List Byte :=
  if bytes = [cmdGet] ∨ bytes = [cmdSet] then bytes else [0xFF]

/-- What was last put into a register: by the driver, or by a `get` into the data
register. `boot` are the registers at the start. -/
def lastWritten (boot : CPConnRegs) (r : CpReg) : List CpEvent → List Byte
  | [] => boot.bytes r
  | .wrote offset bytes :: past =>
    if offset = r.base then (if r = .command then keptCommand bytes else bytes)
    else lastWritten boot r past
  | .get _ _ data :: past =>
    if r = .data then littleEndian 8 data.toNat else lastWritten boot r past
  | .read _ _ :: past => lastWritten boot r past
  | .set _ _ _ :: past => lastWritten boot r past

def lastLDomID (boot : CPConnRegs) (past : List CpEvent) : LDomID :=
  BitVec.ofNat 16 (value (lastWritten boot .ldomID past))

def lastDestAddr (boot : CPConnRegs) (past : List CpEvent) : BitVec 32 :=
  BitVec.ofNat 32 (value (lastWritten boot .destAddr past))

def lastData (boot : CPConnRegs) (past : List CpEvent) : BitVec 64 :=
  BitVec.ofNat 64 (value (lastWritten boot .data past))

def CpEvent.writeOf (cmd : Byte) : CpEvent := .wrote CpReg.command.base [cmd]

def CpEvent.isSet : CpEvent → Bool
  | .set _ _ _ => true
  | _ => false

def CpEvent.isGet : CpEvent → Bool
  | .get _ _ _ => true
  | _ => false

/-- A written command is followed at once by the call it asks for, a call follows such a write with
the values last written, and a read returns what was last written. -/
def Proper (boot : CPConnRegs) (next : Option CpEvent) (x : CpEvent) (past : List CpEvent) : Prop :=
  match x with
  | .wrote _ _ =>
    (x = .writeOf cmdSet → next.any CpEvent.isSet) ∧
    (x = .writeOf cmdGet → next.any CpEvent.isGet)
  | .read offset bytes => ∀ r : CpReg, r.base = offset → bytes = lastWritten boot r past
  | .get ldom destAddr _ =>
    past.head? = some (.writeOf cmdGet) ∧ ldom = lastLDomID boot past ∧
      destAddr = lastDestAddr boot past
  | .set ldom destAddr data =>
    past.head? = some (.writeOf cmdSet) ∧ ldom = lastLDomID boot past ∧
      destAddr = lastDestAddr boot past ∧ data = lastData boot past

/-- The registers hold what was last put there. -/
def CPConnector.Holds (boot : CPConnRegs) (c : CPConnector ρ) : Prop :=
  ∀ r, c.regs.bytes r = lastWritten boot r c.log

structure CPConnector.FollowsProtocol (boot : CPConnRegs) (c : CPConnector ρ) : Prop where
  holds : c.Holds boot
  result : ∀ ldom destAddr data past,
    c.log = .get ldom destAddr data :: past → c.regs.cpData = data
  proper : Everywhere (Proper boot) none c.log

/-- The driver does not read the command register while its last command was a
`'G'` or an `'S'`. -/
def QuietRead (boot : CPConnRegs) (_ : Option CpEvent) (x : CpEvent) (past : List CpEvent) : Prop :=
  match x with
  | .read offset _ =>
    offset = CpReg.command.base →
      lastWritten boot .command past ≠ [cmdGet] ∧ lastWritten boot .command past ≠ [cmdSet]
  | _ => True

/-! ## Runs -/

/-- Every connector is as its constructor leaves it. The constructor of the
adaptor leaves its command register as it finds it. -/
def ControlNet.Booted (net : ControlNet ρ) : Prop :=
  ∀ id c, net.connectors id = some c →
    ∃ type ident resource, c = CPConnector.create type ident resource

abbrev ControlNet.machine (R : ManagedResource ρ) (boot : ControlNet ρ) :
    Machine Abort (ControlNet ρ) DriverAccess where
  start net := boot.Booted ∧ net = boot
  enabled _ _ := True
  call a := discard (dispatchAccess R a)

/-- The states that accesses of a driver lead to from `boot`. -/
def ControlNet.Reachable (R : ManagedResource ρ) (boot net : ControlNet ρ) : Prop :=
  (ControlNet.machine R boot).Reachable net

/-! ## What one access does -/

/-- The access itself: a read or a write of the register `r`. -/
inductive Accessed (r : CpReg) (c : CPConnector ρ) : CpEvent → CPConnector ρ → Prop
  | read : Accessed r c (.read r.base (c.regs.bytes r))
      { c with log := .read r.base (c.regs.bytes r) :: c.log }
  | wrote (bytes : List Byte) (hsize : bytes.length = r.size) :
      Accessed r c (.wrote r.base bytes)
        { c with regs := store c.regs r.base bytes, log := .wrote r.base bytes :: c.log }

/-- The command that a touched command register runs. -/
inductive Commanded (R : ManagedResource ρ) (c : CPConnector ρ) : CPConnector ρ → Prop
  | get (data : BitVec 64) (resource : ρ) (hcmd : c.regs.cpCmd = cmdGet)
      (hget : R.get c.regs.cpLDomID c.regs.cpDestAddr c.resource = .ok (data, resource)) :
      Commanded R c
        { regs := store c.regs CpReg.data.base (littleEndian 8 data.toNat), resource
          log := .get c.regs.cpLDomID c.regs.cpDestAddr data :: c.log }
  | set (resource : ρ) (hcmd : c.regs.cpCmd = cmdSet)
      (hset : R.set c.regs.cpLDomID c.regs.cpDestAddr c.regs.cpData c.resource
        = .ok ((), resource)) :
      Commanded R c
        { c with
          resource, log := .set c.regs.cpLDomID c.regs.cpDestAddr c.regs.cpData :: c.log }
  | unknown (hget : c.regs.cpCmd ≠ cmdGet) (hset : c.regs.cpCmd ≠ cmdSet) :
      Commanded R c { c with regs := store c.regs CpReg.command.base [0xFF] }

/-- One access of a driver to a connector. -/
inductive CpStep (R : ManagedResource ρ) (c : CPConnector ρ) : CPConnector ρ → Prop
  | plain {r : CpReg} {x : CpEvent} {c' : CPConnector ρ} (hr : r ≠ .command)
      (hacc : Accessed r c x c') : CpStep R c c'
  | command {x : CpEvent} {c₁ c' : CPConnector ρ} (hacc : Accessed .command c x c₁)
      (hcmd : Commanded R c₁ c') : CpStep R c c'

variable {r : CpReg} {data : List Byte} {past : List CpEvent} {read : Bool}

namespace ProtocolLemmas

variable {r' : CpReg} {regs boot : CPConnRegs} {sel : Nat} {c c' : CPConnector ρ} {offset : Addr}
  {data' : List Byte} {net net' : ControlNet ρ}

/-! ## Registers and their bytes -/

theorem base_inj : r.base = r'.base ↔ r = r' := by
  cases r <;> cases r' <;> simp [CpReg.base]

theorem base_lt (r : CpReg) : r.base < 32 := by
  cases r <;> simp [CpReg.base]

theorem apart_of_ne (h : r ≠ r') : r.base + r.size ≤ r'.base ∨ r'.base + r'.size ≤ r.base := by
  cases r <;> cases r' <;> simp [CpReg.base, CpReg.size] at h ⊢

variable {bytes : List Byte}

theorem bytes_store_same
    (hsize : bytes.length = r.size) : CPConnRegs.bytes (store regs r.base bytes) r = bytes :=
  load_store_same hsize

theorem bytes_store_other (hsize : bytes.length = r.size) (hne : r ≠ r') :
    CPConnRegs.bytes (store regs r.base bytes) r' = regs.bytes r' := by
  apply load_store_apart
  rw [hsize]
  exact apart_of_ne hne

theorem bytes_command (regs : CPConnRegs) : regs.bytes .command = [regs.cpCmd] := rfl

theorem bytes_command_create (type : BitVec 32) (ident : List Byte) (resource : ρ) :
    (CPConnector.create type ident resource).regs.bytes .command = [0xFF] := by
  have hident : ((ident ++ List.replicate 12 0).take 12).length = 12 := by simp
  show load (store _ _ _) _ _ = _
  rw [load_store_apart (.inl (by rw [hident]; decide)), load_store_apart (.inl (by simp; decide))]
  rfl

/-! ## What was last written -/

theorem lastWritten_wrote_same (hr : r ≠ .command) :
    lastWritten boot r (.wrote r.base bytes :: past) = bytes := by
  simp [lastWritten, hr]

theorem lastWritten_wrote_other (hne : r ≠ r') :
    lastWritten boot r' (.wrote r.base bytes :: past) = lastWritten boot r' past := by
  simp [lastWritten, base_inj, hne]

/-- The command register never holds anything but the two commands and `0xFF`. -/
theorem keptCommand_lastWritten (hboot : boot.bytes .command = [0xFF]) (log : List CpEvent) :
    keptCommand (lastWritten boot .command log) = lastWritten boot .command log := by
  induction log with
  | nil =>
    rw [lastWritten, hboot]
    decide
  | cons x past ih =>
    cases x with
    | wrote offset bytes =>
      unfold lastWritten
      split
      · rw [if_pos rfl]
        unfold keptCommand
        split <;> simp_all
      · exact ih
    | read offset bytes | get ldom destAddr data | set ldom destAddr data => exact ih

/-! ## The bus finds the selected connector -/

/-- The window of the adaptor puts a register at its own offset in the connector
that is selected. -/
theorem route (hsel : sel < 1024) (r : CpReg) :
    (BitVec.ofNat 64 (sel * 32) + BitVec.ofNat 64 r.base).toNat / 32 = sel ∧
      (BitVec.ofNat 64 (sel * 32) + BitVec.ofNat 64 r.base - BitVec.ofNat 64 (sel * 32)).toNat
        = r.base := by
  have hbase := base_lt r
  constructor
  · rw [← BitVec.ofNat_add, BitVec.toNat_ofNat]
    omega
  · rw [BitVec.add_comm, BitVec.add_sub_cancel, BitVec.toNat_ofNat]
    omega

theorem selectCP_lt (net : ControlNet ρ) : net.selectCP < 1024 := by
  have hmask : net.command.toNat &&& 1023 ≤ 1023 := Nat.and_le_right
  show (net.command &&& 0x3FF).toNat < 1024
  rw [BitVec.toNat_and]
  exact Nat.lt_succ_of_le hmask

/-! ## Inversion, function by function -/

theorem accessRegs_inv {paddr : Addr} {pkt : Packet} (hsize : data.length = r.size)
    (h : CPConnector.accessRegs r.base (ControlNet.cpnPacket paddr data read) c = .ok (pkt, c')) :
    ∃ x, Accessed r c x c' := by
  cases read with
  | true =>
    have hread : (ControlNet.cpnPacket paddr data true).isRead = true := rfl
    simp only [CPConnector.accessRegs, hread, if_true, bind_eq_ok, get_eq_ok, lift_eq_ok,
      modify_eq_ok, pure_eq_ok] at h
    obtain ⟨_, _, ⟨rfl, rfl⟩, _, _, ⟨_, rfl⟩, _, _, rfl, _, rfl⟩ := h
    refine ⟨.read r.base (c.regs.bytes r), ?_⟩
    have hbytes : load c.regs r.base data.length = c.regs.bytes r := by
      rw [hsize]
      rfl
    show Accessed r c _ { c with log := .read r.base (load c.regs r.base data.length) :: c.log }
    rw [hbytes]
    exact .read
  | false =>
    have hread : ¬ (ControlNet.cpnPacket paddr data false).isRead = true := by
      show ¬ false = true
      simp
    have hwrite : (ControlNet.cpnPacket paddr data false).isWrite = true := rfl
    simp only [CPConnector.accessRegs, if_neg hread, hwrite, if_true, bind_eq_ok, get_eq_ok,
      lift_eq_ok, modify_eq_ok, pure_eq_ok] at h
    obtain ⟨_, _, ⟨rfl, rfl⟩, bytes, _, ⟨hdata, rfl⟩, _, _, rfl, _, rfl⟩ := h
    have hptr : (ControlNet.cpnPacket paddr data false).getPtr = .ok data := rfl
    rw [hptr] at hdata
    cases hdata
    have htake : data.take (ControlNet.cpnPacket paddr data false).size = data :=
      List.take_length
    rw [htake]
    exact ⟨.wrote r.base data, .wrote data hsize⟩

theorem runCommand_inv {R : ManagedResource ρ}
    (h : CPConnector.runCommand R c = .ok ((), c')) : Commanded R c c' := by
  simp only [CPConnector.runCommand, bind_eq_ok, get_eq_ok, ite_eq_ok, modify_eq_ok,
    CPConnector.onResource, zoom_eq_ok] at h
  obtain ⟨_, _, ⟨rfl, rfl⟩, ⟨hcmd, data, _, ⟨resource, hget, rfl⟩, rfl⟩ |
    ⟨hget, ⟨hcmd, _, _, ⟨resource, hset, rfl⟩, rfl⟩ | ⟨hset, rfl⟩⟩⟩ := h
  · exact .get data resource hcmd hget
  · exact .set resource hcmd hset
  · exact .unknown hget hset

theorem recvAtomic_inv {R : ManagedResource ρ} (hsel : sel < 1024) {result : Packet × Tick}
    (hsize : data.length = r.size)
    (h : CPConnector.recvAtomic R sel
      (ControlNet.cpnPacket (BitVec.ofNat 64 (sel * 32) + BitVec.ofNat 64 r.base) data read) c
        = .ok (result, c')) : CpStep R c c' := by
  have hoffset := (route hsel r).2
  unfold CPConnector.recvAtomic at h
  simp only [ControlNet.cpnPacket, Packet.ofRequest, Request.phys, hoffset, bind_eq_ok,
    lift_eq_ok, ite_eq_ok, pure_eq_ok] at h
  obtain ⟨_, _, ⟨_, rfl⟩, _, _, ⟨_, rfl⟩, pkt, c₁, hacc, hrest⟩ := h
  obtain ⟨x, hacc⟩ := accessRegs_inv hsize hacc
  rcases hrest with ⟨hbase, _, _, hcmd, _, rfl⟩ | ⟨hbase, _, rfl⟩
  · obtain rfl := base_inj.mp hbase
    exact .command hacc (runCommand_inv hcmd)
  · exact .plain (fun hr => hbase (congrArg CpReg.base hr)) hacc

theorem accessData_inv {R : ManagedResource ρ}
    (h : ControlNet.accessData R offset data read net = .ok (data', net')) :
    ∃ c c', net.connectors net.selectCP = some c ∧ CpStep R c c' ∧
      net'.connectors = Function.update net.connectors net.selectCP (some c') := by
  unfold ControlNet.accessData at h
  cases hfind : cpRegisterMap.find? (fun r => offset == BitVec.ofNat 64 r.base) with
  | none =>
    rw [hfind] at h
    exact absurd h (by simp)
  | some r =>
    have hr : offset = BitVec.ofNat 64 r.base := by simpa using List.find?_some hfind
    subst hr
    simp only [hfind, ite_eq_ok, throw_ne_ok, and_false, false_or, bind_eq_ok, get_eq_ok,
      pure_eq_ok, not_not] at h
    obtain ⟨hsize, _, _, ⟨rfl, rfl⟩, pkt, _, hsend, _, rfl⟩ := h
    have hsel := selectCP_lt net
    have hid := (route hsel r).1
    have haddr (paddr : Addr) : (ControlNet.cpnPacket paddr data read).addr = paddr := rfl
    simp only [ControlNet.sendAtomic, haddr, hid] at hsend
    cases hc : net.connectors net.selectCP with
    | none =>
      rw [hc] at hsend
      cases hsend
    | some c =>
      rw [hc] at hsend
      simp only [except_bind_eq_ok, except_pure_eq_ok, Prod.mk.injEq] at hsend
      obtain ⟨⟨result, c'⟩, hrecv, _, rfl⟩ := hsend
      exact ⟨c, c', rfl, recvAtomic_inv hsel hsize hrecv, rfl⟩

theorem accessCommand_connectors
    (h : ControlNet.accessCommand offset data read net = .ok (data', net')) :
    net'.connectors = net.connectors := by
  simp only [ControlNet.accessCommand, ite_eq_ok, throw_ne_ok, and_false, or_false, bind_eq_ok,
    lift_eq_ok, get_eq_ok, modify_eq_ok, pure_eq_ok] at h
  obtain ⟨_, _, _, ⟨_, rfl⟩, ⟨_, _, _, ⟨rfl, rfl⟩, _, rfl⟩ | ⟨_, _, _, rfl, _, rfl⟩⟩ := h
  · rfl
  · rfl

end ProtocolLemmas

open ProtocolLemmas

variable {R : ManagedResource ρ} {net boot : ControlNet ρ}

/-- One access of a driver leaves the connectors alone, or is one step of the
selected one. -/
theorem ControlNet.dispatchAccess_inv {a : DriverAccess} {net' : ControlNet ρ}
    (h : ControlNet.dispatchAccess R a net = .ok (data, net')) :
    net'.connectors = net.connectors ∨
      ∃ c c', net.connectors net.selectCP = some c ∧ CpStep R c c' ∧
        net'.connectors = Function.update net.connectors net.selectCP (some c') := by
  simp only [ControlNet.dispatchAccess, ite_eq_ok, throw_ne_ok, and_false, or_false, false_or] at h
  obtain ⟨_, ⟨_, hcommand⟩ | ⟨_, _, hdata⟩⟩ := h
  · exact .inl (accessCommand_connectors hcommand)
  · exact .inr (accessData_inv hdata)

/-! ## The registers hold what was last put there -/

variable {log : List CpEvent}

namespace ProtocolLemmas

variable {boot : CPConnRegs} {x : CpEvent}

/-- After the access itself only the command register may be stale: a written
command that is not known is replaced a moment later. -/
theorem Accessed.holds {r' : CpReg} {c c₁ : CPConnector ρ}
    (hacc : Accessed r c x c₁) (h : c.Holds boot) (hr' : r ≠ .command ∨ r' ≠ .command) :
    c₁.regs.bytes r' = lastWritten boot r' c₁.log := by
  cases hacc with
  | read => exact h r'
  | wrote bytes hsize =>
    rcases eq_or_ne r r' with rfl | hne
    · have hr : r ≠ .command := hr'.elim id id
      exact (bytes_store_same hsize).trans (lastWritten_wrote_same hr).symm
    · calc CPConnRegs.bytes (store c.regs r.base bytes) r'
          = c.regs.bytes r' := bytes_store_other hsize hne
        _ = lastWritten boot r' c.log := h r'
        _ = _ := (lastWritten_wrote_other hne).symm

/-- A command that is not known is replaced in the command register. -/
theorem Accessed.kept (hboot : boot.bytes .command = [0xFF]) {c c₁ : CPConnector ρ}
    (hacc : Accessed .command c x c₁) (h : c.Holds boot) :
    lastWritten boot .command c₁.log = keptCommand (c₁.regs.bytes .command) := by
  cases hacc with
  | read =>
    rw [h .command]
    exact (keptCommand_lastWritten hboot c.log).symm
  | wrote bytes hsize =>
    rw [show CPConnRegs.bytes (store c.regs _ bytes) .command = bytes from bytes_store_same hsize]
    simp [lastWritten]

variable {R : ManagedResource ρ}

theorem Commanded.holds (hboot : boot.bytes .command = [0xFF]) {c c₁ c' : CPConnector ρ}
    (hacc : Accessed .command c x c₁) (h : c.Holds boot) (hcmd : Commanded R c₁ c') :
    c'.Holds boot := by
  have hother (r : CpReg) (hr : r ≠ .command) : c₁.regs.bytes r = lastWritten boot r c₁.log :=
    Accessed.holds hacc h (.inr hr)
  have hkept := Accessed.kept hboot hacc h
  rw [bytes_command] at hkept
  have hknown (hcmd : c₁.regs.cpCmd = cmdGet ∨ c₁.regs.cpCmd = cmdSet) (r : CpReg) :
      c₁.regs.bytes r = lastWritten boot r c₁.log := by
    rcases eq_or_ne r .command with rfl | hr
    · rw [hkept, keptCommand, if_pos (hcmd.imp (congrArg ([·])) (congrArg ([·])))]
      rfl
    · exact hother r hr
  intro r
  cases hcmd with
  | get data resource hcmd hget =>
    have hlen : (littleEndian 8 data.toNat).length = CpReg.data.size := length_littleEndian _ _
    cases eq_or_ne .data r with
    | inl heq =>
      subst heq
      exact bytes_store_same hlen
    | inr hne =>
      have hlast : lastWritten boot r (.get c₁.regs.cpLDomID c₁.regs.cpDestAddr data :: c₁.log)
          = lastWritten boot r c₁.log := by
        simp [lastWritten, hne.symm]
      rw [bytes_store_other hlen hne, hlast]
      exact hknown (.inl hcmd) r
  | set resource hcmd hset => exact hknown (.inr hcmd) r
  | unknown hget hset =>
    have hlen : [(0xFF : Byte)].length = CpReg.command.size := rfl
    rcases eq_or_ne .command r with rfl | hne
    · rw [bytes_store_same hlen, hkept, keptCommand, if_neg (by simp [hget, hset])]
    · rw [bytes_store_other hlen hne]
      exact hother r hne.symm

variable {c c' : CPConnector ρ}

theorem CpStep.holds (hboot : boot.bytes .command = [0xFF]) (hstep : CpStep R c c')
    (h : c.Holds boot) : c'.Holds boot := by
  cases hstep with
  | plain hr hacc => exact fun r' => Accessed.holds hacc h (.inl hr)
  | command hacc hcmd => exact Commanded.holds hboot hacc h hcmd

/-- The data register holds the result of a `get` that has just been made. -/
theorem cpData_of_holds {c : CPConnector ρ} (h : c.Holds boot)
    {ldom : LDomID} {destAddr : BitVec 32} {data : BitVec 64}
    (hlog : c.log = .get ldom destAddr data :: past) : c.regs.cpData = data := by
  have hbytes : c.regs.bytes .data = littleEndian 8 data.toNat := by
    rw [h .data, hlog]
    rfl
  have hlt : data.toNat < 256 ^ 8 := data.isLt
  rw [CPConnRegs.cpData, hbytes, value_littleEndian, Nat.mod_eq_of_lt hlt]
  simp

/-! ## The log -/

theorem proper_access {x y : CpEvent} (hset : x.isSet = false) (hget : x.isGet = false) :
    Proper boot (some x) y past ↔ Proper boot none y past := by
  cases y with
  | wrote offset bytes => simp [Proper, hset, hget]
  | read offset bytes | get ldom destAddr data | set ldom destAddr data => rfl

theorem everywhere_proper_access (hset : x.isSet = false)
    (hget : x.isGet = false) (log : List CpEvent) :
    Everywhere (Proper boot) (some x) log ↔ Everywhere (Proper boot) none log := by
  cases log with
  | nil => rfl
  | cons y past => exact and_congr_left' (proper_access hset hget)

theorem everywhere_quietRead {next : Option CpEvent} (log : List CpEvent) :
    Everywhere (QuietRead boot) next log ↔ Everywhere (QuietRead boot) none log := by
  cases log with
  | nil | cons y past => rfl

/-- The log keeps the protocol exactly when no command was read back. -/
def LawsAgree (boot : CPConnRegs) (log : List CpEvent) : Prop :=
  Everywhere (Proper boot) none log ↔ Everywhere (QuietRead boot) none log

/-- The laws say the same about a log, whatever access comes after it. -/
theorem laws_access (hset : x.isSet = false) (hget : x.isGet = false) (ih : LawsAgree boot log) :
    Everywhere (Proper boot) (some x) log ↔ Everywhere (QuietRead boot) (some x) log :=
  (everywhere_proper_access hset hget log).trans (Iff.trans ih (everywhere_quietRead log).symm)

/-- An event that both laws allow changes neither of them. -/
theorem laws_cons
    (hset : x.isSet = false) (hget : x.isGet = false) (hproper : Proper boot none x log)
    (hquiet : QuietRead boot none x log)
    (ih : LawsAgree boot log) :
    LawsAgree boot (x :: log) :=
  and_congr (iff_of_true hproper hquiet) (laws_access hset hget ih)

/-- So does a written command with the call that it asks for. -/
theorem laws_call {call x : CpEvent}
    (hset : x.isSet = false) (hget : x.isGet = false) (hcall : Proper boot none call (x :: log))
    (hproper : Proper boot (some call) x log) (hquiet : QuietRead boot none x log)
    (hcallQuiet : QuietRead boot none call (x :: log))
    (ih : LawsAgree boot log) :
    LawsAgree boot (call :: x :: log) :=
  and_congr (iff_of_true hcall hcallQuiet)
    (and_congr (iff_of_true hproper hquiet) (laws_access hset hget ih))

/-- A read returns what was last written. -/
theorem proper_read {c : CPConnector ρ} (h : c.Holds boot) (next : Option CpEvent) (r : CpReg) :
    Proper boot next (.read r.base (c.regs.bytes r)) c.log := by
  intro r' hbase
  obtain rfl := base_inj.mp hbase
  exact h r'

/-- An access to a register other than the command register is harmless. -/
theorem plain_laws (hr : r ≠ .command) (hacc : Accessed r c x c') (h : c.Holds boot)
    (ih : LawsAgree boot c.log) :
    LawsAgree boot c'.log := by
  have hbase : r.base ≠ CpReg.command.base := fun heq => hr (base_inj.mp heq)
  cases hacc with
  | read => exact laws_cons rfl rfl (proper_read h none r) (fun heq => absurd heq hbase) ih
  | wrote bytes hsize =>
    have hnot (cmd : Byte) : CpEvent.wrote r.base bytes ≠ .writeOf cmd :=
      fun heq => hbase (CpEvent.wrote.inj heq).1
    exact laws_cons rfl rfl ⟨fun heq => absurd heq (hnot _), fun heq => absurd heq (hnot _)⟩
      trivial ih

/-- A command that is read back breaks both laws when it calls the resource, and
is harmless otherwise. -/
theorem readBack_laws (h : c.Holds boot) (hcmd : Commanded R
      { c with log := .read CpReg.command.base (c.regs.bytes .command) :: c.log } c')
    (ih : LawsAgree boot c.log) :
    LawsAgree boot c'.log := by
  have hlast : lastWritten boot .command c.log = [c.regs.cpCmd] := (h .command).symm
  have hbroken {log : List CpEvent} {call : CpEvent} (hproper : ¬ Proper boot none call log)
      (hquiet : ¬ Everywhere (QuietRead boot) (some call) log) : LawsAgree boot (call :: log) :=
    iff_of_false (fun h => hproper h.1) fun h => hquiet h.2
  cases hcmd with
  | get data resource hcmd hget =>
    refine hbroken (fun h => absurd h.1 (by simp [CpEvent.writeOf])) fun hquiet => ?_
    exact (hquiet.1 rfl).1 (hlast.trans (congrArg ([·]) hcmd))
  | set resource hcmd hset =>
    refine hbroken (fun h => absurd h.1 (by simp [CpEvent.writeOf])) fun hquiet => ?_
    exact (hquiet.1 rfl).2 (hlast.trans (congrArg ([·]) hcmd))
  | unknown hget hset =>
    have hquiet : QuietRead boot none (.read CpReg.command.base (c.regs.bytes .command)) c.log := by
      intro _
      rw [hlast]
      exact ⟨fun heq => hget (List.cons.inj heq).1, fun heq => hset (List.cons.inj heq).1⟩
    exact laws_cons rfl rfl (proper_read h none .command) hquiet ih

/-- A written command makes the call it asks for, with what was last written. -/
theorem written_laws {bytes : List Byte}
    (hsize : bytes.length = CpReg.command.size) (h : c.Holds boot)
    (hcmd : Commanded R
      { c with
        regs := store c.regs CpReg.command.base bytes
        log := .wrote CpReg.command.base bytes :: c.log } c')
    (ih : LawsAgree boot c.log) :
    LawsAgree boot c'.log := by
  have hwrote {cmd : Byte} : CpEvent.wrote CpReg.command.base bytes = .writeOf cmd ↔
      CPConnRegs.cpCmd (store c.regs CpReg.command.base bytes) = cmd := by
    have hbytes := (bytes_store_same hsize).symm.trans (bytes_command (store c.regs _ bytes))
    generalize CPConnRegs.cpCmd (store c.regs _ bytes) = b at hbytes ⊢
    simp [CpEvent.writeOf, hbytes]
  have hheld (r : CpReg) (hr : r ≠ .command) :
      CPConnRegs.bytes (store c.regs CpReg.command.base bytes) r
        = lastWritten boot r (.wrote CpReg.command.base bytes :: c.log) :=
    Accessed.holds (.wrote bytes hsize) h (.inr hr)
  have hldom := congrArg (fun b => BitVec.ofNat 16 (value b)) (hheld .ldomID (by decide))
  have hdest := congrArg (fun b => BitVec.ofNat 32 (value b)) (hheld .destAddr (by decide))
  have hdata := congrArg (fun b => BitVec.ofNat 64 (value b)) (hheld .data (by decide))
  cases hcmd with
  | get data resource hcmd hget =>
    refine laws_call rfl rfl ⟨congrArg some (hwrote.mpr hcmd), hldom, hdest⟩
      ⟨fun heq => ?_, fun _ => rfl⟩ trivial trivial ih
    exact absurd (hcmd.symm.trans (hwrote.mp heq)) (by decide)
  | set resource hcmd hset =>
    refine laws_call rfl rfl ⟨congrArg some (hwrote.mpr hcmd), hldom, hdest, hdata⟩
      ⟨fun _ => rfl, fun heq => ?_⟩ trivial trivial ih
    exact absurd (hcmd.symm.trans (hwrote.mp heq)) (by decide)
  | unknown hget hset =>
    exact laws_cons rfl rfl
      ⟨fun heq => absurd (hwrote.mp heq) hset, fun heq => absurd (hwrote.mp heq) hget⟩ trivial ih

theorem CpStep.laws (hstep : CpStep R c c') (h : c.Holds boot) (ih : LawsAgree boot c.log) :
    LawsAgree boot c'.log := by
  cases hstep with
  | plain hr hacc => exact plain_laws hr hacc h ih
  | command hacc hcmd =>
    cases hacc with
    | read => exact readBack_laws h hcmd ih
    | wrote bytes hsize => exact written_laws hsize h hcmd ih

end ProtocolLemmas

/-! ## Every run -/

/-- The registers of a connector hold what was last put there, and its log keeps
the protocol exactly when no command was read back. -/
structure CPConnector.Lawful (boot : CPConnRegs) (c : CPConnector ρ) : Prop where
  holds : c.Holds boot
  laws : Everywhere (Proper boot) none c.log ↔ Everywhere (QuietRead boot) none c.log

theorem ControlNet.Reachable.lawful
    (h : ControlNet.Reachable R boot net) {id : Nat} {c₀ c : CPConnector ρ}
    (hc₀ : boot.connectors id = some c₀) (hc : net.connectors id = some c) : c.Lawful c₀.regs := by
  have hall := h.invariant (I := fun net => boot.Booted ∧
      ∀ c, net.connectors id = some c → c.Lawful c₀.regs) ?_ fun net a net' ih _ _ hcall => ?_
  · exact hall.2 c hc
  · rintro _ ⟨hboot, rfl⟩
    refine ⟨hboot, fun c hc => ?_⟩
    obtain rfl : c₀ = c := Option.some.inj (hc₀.symm.trans hc)
    obtain ⟨type, ident, resource, rfl⟩ := hboot id c₀ hc₀
    exact ⟨fun r => rfl, Iff.rfl⟩
  · obtain ⟨hboot, ih⟩ := ih
    refine ⟨hboot, fun c hc => ?_⟩
    obtain ⟨data, hcall⟩ := discard_eq_ok.mp hcall
    rcases ControlNet.dispatchAccess_inv hcall with hsame | ⟨d, d', hd, hstep, hnew⟩
    · rw [hsame] at hc
      exact ih c hc
    · rw [hnew] at hc
      rcases eq_or_ne id net.selectCP with rfl | hne
      · rw [Function.update_self] at hc
        obtain rfl := Option.some.inj hc
        have hcommand : c₀.regs.bytes .command = [0xFF] := by
          obtain ⟨type, ident, resource, rfl⟩ := hboot _ c₀ hc₀
          exact bytes_command_create type ident resource
        have hold := ih d hd
        exact ⟨CpStep.holds hcommand hstep hold.holds, CpStep.laws hstep hold.holds hold.laws⟩
      · rw [Function.update_of_ne hne] at hc
        exact ih c hc

/-- A table of parameters by LDom and address. -/
abbrev ResourceTable := List (LDomID × BitVec 32 × BitVec 64)

def tableResource : ManagedResource ResourceTable where
  get ldom destAddr := do
    let table ← get
    return ((table.find? fun row => row.1 = ldom ∧ row.2.1 = destAddr).map (·.2.2)).getD 0
  set ldom destAddr data := modify fun table => (ldom, destAddr, data) :: table

def ControlNet.single : ControlNet ResourceTable where
  command := 0
  connectors id := if id = 0 then some (CPConnector.create 0 [] []) else none

def DriverAccess.writeReg (r : CpReg) (x : Nat) : DriverAccess :=
  ⟨1, BitVec.ofNat 64 r.base, false, littleEndian r.size x⟩

def DriverAccess.readReg (r : CpReg) : DriverAccess :=
  ⟨1, BitVec.ofNat 64 r.base, true, List.replicate r.size 0⟩

theorem ControlNet.exists_reachable_of_log (accesses : List DriverAccess) {log : List CpEvent}
    (h : ((ControlNet.machine tableResource ControlNet.single).replay (fun _ _ => True)
      ControlNet.single accesses).bind (fun net => (net.connectors 0).map CPConnector.log) =
        some log) :
    ∃ net c, ControlNet.Reachable tableResource ControlNet.single net ∧
      net.connectors 0 = some c ∧ c.log = log := by
  have hboot : ControlNet.single.Booted := by
    intro id c hc
    have hc : (if id = 0 then some (CPConnector.create 0 [] []) else none) = some c := hc
    split at hc
    · cases hc
      exact ⟨0, [], [], rfl⟩
    · cases hc
  obtain ⟨net, hreplay, hlog⟩ := Option.bind_eq_some_iff.mp h
  obtain ⟨c, hc, hlog⟩ := Option.map_eq_some_iff.mp hlog
  exact ⟨net, c, Machine.ReachableBy.replay (.startup ⟨hboot, rfl⟩) hreplay, hc, hlog⟩

end PardG5V
