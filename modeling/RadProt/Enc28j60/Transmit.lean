import RadProt.Enc28j60.Banks
import RadProt.Lib.Ring

namespace RadProt.Enc28j60

open RadProt.Lib

def txstartInit : UInt16 := 0x1A00
def txendInit : UInt16 := 0x1FFF
def maxTxRetrycount : UInt16 := 16
def maxRetries : Nat := 1000
def ewrpt : UInt8 := 0x02
def etxst : UInt8 := 0x04
def etxnd : UInt8 := 0x06
def econ1Txrst : UInt8 := 0x80
def econ1Txrts : UInt8 := 0x08
def eirTxif : UInt8 := 0x08
def eirTxerif : UInt8 := 0x02
def estatTxabrt : UInt8 := 0x02
def tsvTxlatecollision : Nat := 29
def tsvSize : Nat := 7

def memorySize : Nat := 0x2000

inductive TxCommand
  | reg (call : Call)
  | writeBuff (bytes : List UInt8)
  | readBuff (length : Nat)
  deriving DecidableEq

structure TxChip where
  mem : Nat → UInt8
  etxst : UInt16
  etxnd : UInt16
  ewrpt : UInt16
  erdpt : UInt16

namespace TxChip

def window (c : TxChip) : List UInt8 :=
  ringRead memorySize c.mem c.etxst.toNat (c.etxnd.toNat + 1 - c.etxst.toNat)

def regwWrite (c : TxChip) (addr : UInt8) (data : UInt16) : TxChip :=
  if addr = Enc28j60.etxst then { c with etxst := data }
  else if addr = Enc28j60.etxnd then { c with etxnd := data }
  else if addr = Enc28j60.ewrpt then { c with ewrpt := data }
  else if addr = Enc28j60.erdpt then { c with erdpt := data }
  else c

def writeBuff (c : TxChip) (bytes : List UInt8) : TxChip :=
  { c with
    mem := ringWrite memorySize c.mem c.ewrpt.toNat bytes
    ewrpt := .ofNat ((c.ewrpt.toNat + bytes.length) % memorySize) }

def readBuff (c : TxChip) (length : Nat) : TxChip :=
  { c with erdpt := .ofNat ((c.erdpt.toNat + length) % memorySize) }

end TxChip

structure Start where
  window : List UInt8
  frame : Option (List UInt8)
  deriving DecidableEq

/-- The driver's transmit side and the chip, with the frame that was accepted last, the number of
late collisions since a transmission was last complete, every start, and how many
retransmissions were left when each frame was accepted. -/
structure Transmitter where
  chip : TxChip
  txRetryCount : UInt16
  frame : Option (List UInt8)
  lates : Nat
  starts : List Start
  budgets : List UInt16

namespace Transmitter

def exec (s : Transmitter) : TxCommand → Transmitter
  | .reg (.regwWrite addr data) => { s with chip := s.chip.regwWrite addr data }
  | .reg (.regBfset addr mask) =>
    if addr = econ1 ∧ mask &&& econ1Txrts ≠ 0 then
      { s with starts := s.starts ++ [⟨s.chip.window, s.frame⟩] }
    else s
  | .reg _ => s
  | .writeBuff bytes => { s with chip := s.chip.writeBuff bytes }
  | .readBuff length => { s with chip := s.chip.readBuff length }

def run (s : Transmitter) (commands : List TxCommand) : Transmitter := commands.foldl exec s

def txfifoInit (start stop : UInt16) : List TxCommand :=
  if start > 0x1FFF ∨ stop > 0x1FFF ∨ start > stop then []
  else [.reg (.regwWrite etxst start), .reg (.regwWrite etxnd stop)]

def resetTxLogic : List TxCommand :=
  [.reg (.regBfset econ1 econ1Txrst), .reg (.regBfclr econ1 econ1Txrst)] ++
    txfifoInit txstartInit txendInit

/-- `regw_read` keeps what it has read in a `uint8_t`. -/
def regwRead (value : UInt16) : UInt16 := value.toUInt8.toUInt16

def tsvAddress (s : Transmitter) : UInt16 := regwRead s.chip.etxnd + 1

def readTsv (s : Transmitter) : List TxCommand :=
  [.reg (.regbRead etxnd), .reg (.regbRead (etxnd + 1)), .reg (.regwWrite erdpt s.tsvAddress),
    .readBuff tsvSize]

def tsv (s : Transmitter) : List UInt8 :=
  ringRead memorySize s.chip.mem s.tsvAddress.toNat tsvSize

def tsvGetbit (tsv : List UInt8) (bit : Nat) : Bool :=
  tsv.getD (bit / 8) 0 &&& (1 : UInt8) <<< (UInt8.ofNat (bit % 8)) ≠ 0

def lateCollision (s : Transmitter) : Bool := tsvGetbit s.tsv tsvTxlatecollision

def Accepts (p : List (List UInt8)) : Prop :=
  txstartInit.toNat + p.flatten.length ≤ txendInit.toNat

instance (p : List (List UInt8)) : Decidable (Accepts p) := inferInstanceAs (Decidable (_ ≤ _))

/-- The commands of `send_pbuf` for a chain that it accepts; `polls` is how often it reads `EIR`
while it waits. -/
def sendCommands (polls : Nat) (p : List (List UInt8)) : List TxCommand :=
  List.replicate polls (.reg (.regbRead eir)) ++
    [.reg (.regBfset econ1 econ1Txrst), .reg (.regBfclr econ1 econ1Txrst),
      .reg (.regBfclr eir (eirTxerif ||| eirTxif)), .reg (.regwWrite ewrpt txstartInit),
      .reg (.regwWrite etxnd (.ofNat (txstartInit.toNat + p.flatten.length))), .writeBuff [0]] ++
    (p.filter (· ≠ [])).map .writeBuff ++ [.reg (.regBfset econ1 econ1Txrts)]

def budget (s : Transmitter) : UInt16 :=
  if s.txRetryCount < maxTxRetrycount then maxTxRetrycount - s.txRetryCount else 0

def sendPbuf (s : Transmitter) (polls : Nat) (p : List (List UInt8)) : Transmitter :=
  if Accepts p then
    let s := { s with frame := some p.flatten, budgets := s.budgets ++ [s.budget] }
    s.run (sendCommands polls p)
  else s

def txComplete (s : Transmitter) (estatValue : UInt8) : Transmitter :=
  let s := { s with txRetryCount := 0, lates := 0 }
  let s := s.run [.reg (.regbRead estat)]
  let s :=
    if estatValue &&& estatTxabrt ≠ 0 then s.run (resetTxLogic ++ [.reg (.regBfclr estat estatTxabrt)])
    else s
  s.run [.reg (.regBfclr econ1 econ1Txrts), .reg (.regBfclr eir eirTxif)]

def txError (s : Transmitter) : Transmitter :=
  let late := s.lateCollision
  let s := s.run (s.readTsv ++ resetTxLogic)
  let s :=
    if late then
      let again := s.txRetryCount < maxTxRetrycount
      let s := { s with txRetryCount := s.txRetryCount + 1, lates := s.lates + 1 }
      if again then s.run [.reg (.regBfset econ1 econ1Txrts)]
      else s.run [.reg (.regBfclr econ1 econ1Txrts)]
    else s.run [.reg (.regBfclr econ1 econ1Txrts)]
  s.run [.reg (.regBfclr eir (eirTxerif ||| eirTxif))]

def irqTx (s : Transmitter) (intflags estatValue : UInt8) : Transmitter :=
  let s :=
    if intflags &&& eirTxif ≠ 0 ∧ intflags &&& eirTxerif = 0 then s.txComplete estatValue else s
  if intflags &&& eirTxerif ≠ 0 then s.txError else s

inductive Event
  | sendPbuf (polls : Nat) (p : List (List UInt8))
  | irqTx (intflags estatValue : UInt8)
  /-- The chip puts a byte into its memory: a received one, or one of a status vector. -/
  | chipWrites (a : Nat) (value : UInt8)
  deriving DecidableEq

def InFrame (s : Transmitter) (a : Nat) : Prop :=
  ∃ bytes ∈ s.frame, txstartInit.toNat ≤ a ∧ a ≤ txstartInit.toNat + bytes.length

instance (s : Transmitter) (a : Nat) : Decidable (s.InFrame a) :=
  inferInstanceAs (Decidable (∃ bytes ∈ s.frame, _ ∧ _))

def Event.Enabled (s : Transmitter) : Event → Prop
  | .sendPbuf polls _ => polls ≤ maxRetries
  | .irqTx _ _ => True
  | .chipWrites a _ => ¬ s.InFrame a

instance (s : Transmitter) : (e : Event) → Decidable (e.Enabled s)
  | .sendPbuf _ _ => inferInstanceAs (Decidable (_ ≤ _))
  | .irqTx _ _ => inferInstanceAs (Decidable True)
  | .chipWrites _ _ => inferInstanceAs (Decidable (¬ _))

def txStep (s : Transmitter) : Event → Transmitter
  | .sendPbuf polls p => s.sendPbuf polls p
  | .irqTx intflags estatValue => s.irqTx intflags estatValue
  | .chipWrites a value => { s with chip := { s.chip with mem := Function.update s.chip.mem a value } }

def Step (s : Transmitter) (e : Event) (t : Transmitter) : Prop := e.Enabled s ∧ t = s.txStep e

def init (mem : Nat → UInt8) : Transmitter :=
  run ⟨⟨mem, 0, 0, 0, 0⟩, 0, none, 0, [], []⟩ (txfifoInit txstartInit txendInit)

/-- Every start sends the control byte and the frame that was accepted last, and every accepted
frame has all its retransmissions before it. -/
structure Sound (s : Transmitter) : Prop where
  starts : ∀ start ∈ s.starts, ∃ bytes, start.frame = some bytes ∧ start.window = 0 :: bytes
  budgets : ∀ budget ∈ s.budgets, budget = maxTxRetrycount

/-- A frame is accepted with no late collision since a transmission was last complete, or with as
many as bring the counter round; a late collision that is answered by a retransmission meets a
frame that fills the transmit area. -/
def Kept (s : Transmitter) : Event → Prop
  | .sendPbuf _ p => Accepts p → s.lates % 65536 = 0
  | .irqTx intflags _ => intflags &&& eirTxerif ≠ 0 → s.lateCollision = true →
    s.lates % 65536 < 16 → ∃ bytes ∈ s.frame, bytes.length = 1535
  | .chipWrites _ _ => True

instance (s : Transmitter) : (e : Event) → Decidable (Kept s e)
  | .sendPbuf _ _ => inferInstanceAs (Decidable (_ → _))
  | .irqTx _ _ => inferInstanceAs (Decidable (_ → _ → _ → _))
  | .chipWrites _ _ => inferInstanceAs (Decidable True)

section Commands

variable {s : Transmitter} {p : List (List UInt8)}

theorem run_append (s : Transmitter) (cs ds : List TxCommand) :
    s.run (cs ++ ds) = (s.run cs).run ds := List.foldl_append

@[simp]
theorem run_nil (s : Transmitter) : s.run [] = s := rfl

@[simp]
theorem run_cons (s : Transmitter) (c : TxCommand) (cs : List TxCommand) :
    s.run (c :: cs) = (s.exec c).run cs := rfl

@[simp]
theorem exec_txrst (s : Transmitter) : s.exec (.reg (.regBfset econ1 econ1Txrst)) = s := by
  rw [exec, if_neg (by decide)]

@[simp]
theorem exec_txrts (s : Transmitter) : s.exec (.reg (.regBfset econ1 econ1Txrts)) =
    { s with starts := s.starts ++ [⟨s.chip.window, s.frame⟩] } := by
  rw [exec, if_pos (by decide)]

@[simp]
theorem exec_regBfclr (s : Transmitter) (addr mask : UInt8) :
    s.exec (.reg (.regBfclr addr mask)) = s := rfl

@[simp]
theorem exec_regbRead (s : Transmitter) (addr : UInt8) : s.exec (.reg (.regbRead addr)) = s := rfl

def wholeArea (c : TxChip) (erdpt : UInt16) : TxChip :=
  { c with etxst := txstartInit, etxnd := txendInit, erdpt := erdpt }

theorem run_resetTxLogic (s : Transmitter) :
    s.run resetTxLogic = { s with chip := wholeArea s.chip s.chip.erdpt } := by
  have hcommands : resetTxLogic = [.reg (.regBfset econ1 econ1Txrst),
      .reg (.regBfclr econ1 econ1Txrst), .reg (.regwWrite etxst txstartInit),
      .reg (.regwWrite etxnd txendInit)] := by decide
  rw [hcommands]
  simp only [run_cons, run_nil, exec_txrst, exec_regBfclr]
  rfl

theorem run_readTsv (s : Transmitter) : ∃ erdpt, s.run (s.readTsv ++ resetTxLogic) =
    { s with chip := wholeArea s.chip erdpt } := by
  rw [run_append, run_resetTxLogic]
  exact ⟨_, rfl⟩

theorem txComplete_eq (s : Transmitter) (estatValue : UInt8) : s.txComplete estatValue =
    { s with
      txRetryCount := 0
      lates := 0
      chip := if estatValue &&& estatTxabrt ≠ 0 then wholeArea s.chip s.chip.erdpt else s.chip } := by
  unfold txComplete
  by_cases habort : estatValue &&& estatTxabrt ≠ 0
  · simp only [if_pos habort, run_append, run_resetTxLogic, run_cons, run_nil,
      exec_regBfclr, exec_regbRead]
  · simp only [if_neg habort, run_cons, run_nil, exec_regBfclr, exec_regbRead]

theorem txError_other (h : s.lateCollision = false) :
    ∃ erdpt, s.txError = { s with chip := wholeArea s.chip erdpt } := by
  obtain ⟨erdpt, hrun⟩ := s.run_readTsv
  refine ⟨erdpt, ?_⟩
  simp only [txError, hrun, h, Bool.false_eq_true, if_false, run_cons, run_nil,
    exec_regBfclr]

theorem txError_again (h : s.lateCollision = true) (hcount : s.txRetryCount < maxTxRetrycount) :
    ∃ erdpt, s.txError = { s with
      chip := wholeArea s.chip erdpt
      txRetryCount := s.txRetryCount + 1
      lates := s.lates + 1
      starts := s.starts ++ [⟨(wholeArea s.chip erdpt).window, s.frame⟩] } := by
  obtain ⟨erdpt, hrun⟩ := s.run_readTsv
  refine ⟨erdpt, ?_⟩
  simp only [txError, hrun, h, if_true, if_pos hcount, run_cons, run_nil,
    exec_regBfclr, exec_txrts]

theorem txError_left (h : s.lateCollision = true) (hcount : ¬ s.txRetryCount < maxTxRetrycount) :
    ∃ erdpt, s.txError = { s with
      chip := wholeArea s.chip erdpt
      txRetryCount := s.txRetryCount + 1
      lates := s.lates + 1 } := by
  obtain ⟨erdpt, hrun⟩ := s.run_readTsv
  refine ⟨erdpt, ?_⟩
  simp only [txError, hrun, h, if_true, if_neg hcount, run_cons, run_nil,
    exec_regBfclr]

theorem run_writeBuff {mem : Nat → UInt8} {start : Nat} {done : List UInt8}
    {bufs : List (List UInt8)} (hdone : Written memorySize mem start done s.chip.mem)
    (hptr : s.chip.ewrpt.toNat = (start + done.length) % memorySize)
    (hfits : (done ++ bufs.flatten).length ≤ memorySize) :
    ∃ mem' ewrpt,
      s.run (bufs.map .writeBuff) = { s with chip := { s.chip with mem := mem', ewrpt } } ∧
      Written memorySize mem start (done ++ bufs.flatten) mem' := by
  induction bufs generalizing s done with
  | nil =>
    refine ⟨s.chip.mem, s.chip.ewrpt, rfl, ?_⟩
    rwa [List.flatten_nil, List.append_nil]
  | cons b bufs ih =>
    rw [List.flatten_cons, ← List.append_assoc] at hfits ⊢
    have hround : (done ++ b).length ≤ memorySize := by
      rw [List.length_append] at hfits
      exact Nat.le_trans (Nat.le_add_right _ _) hfits
    have hwritten : Written memorySize mem start (done ++ b) (s.exec (.writeBuff b)).chip.mem := by
      simp only [exec, TxChip.writeBuff, hptr, ringWrite_mod]
      rw [List.length_append] at hround
      exact hdone.append hround
    have hptr' : (s.exec (.writeBuff b)).chip.ewrpt.toNat =
        (start + (done ++ b).length) % memorySize := by
      have hlt : (start + (done.length + b.length)) % memorySize < 65536 :=
        Nat.lt_of_lt_of_le (Nat.mod_lt _ (by decide)) (by decide)
      simp only [exec, TxChip.writeBuff, hptr, UInt16.toNat_ofNat', Nat.mod_add_mod,
        List.length_append, Nat.add_assoc]
      exact Nat.mod_eq_of_lt hlt
    obtain ⟨mem', ewrpt, hrun, hmem⟩ := ih hwritten hptr' hfits
    exact ⟨mem', ewrpt, hrun, hmem⟩

theorem run_polls (s : Transmitter) (polls : Nat) :
    s.run (.replicate polls (.reg (.regbRead eir))) = s := by
  induction polls with
  | zero => rfl
  | succ polls ih => rw [List.replicate_succ, run_cons, exec_regbRead, ih]

theorem exists_sendPbuf (haccepts : Accepts p) (polls : Nat) :
    ∃ chip : TxChip, s.sendPbuf polls p = { s with
        chip
        frame := some p.flatten
        budgets := s.budgets ++ [s.budget]
        starts := s.starts ++ [⟨chip.window, some p.flatten⟩] } ∧
      chip.etxst = s.chip.etxst ∧
      chip.etxnd.toNat = txstartInit.toNat + p.flatten.length ∧
      Written memorySize s.chip.mem txstartInit.toNat (0 :: p.flatten) chip.mem := by
  have hstart : txstartInit.toNat = 6656 := rfl
  have hmemory : memorySize = 8192 := rfl
  have hlength : p.flatten.length ≤ 1535 := Nat.le_of_add_le_add_left haccepts
  let stop : UInt16 := .ofNat (txstartInit.toNat + p.flatten.length)
  let s₁ : Transmitter := { s with
    chip := { s.chip with ewrpt := txstartInit, etxnd := stop }
    frame := some p.flatten
    budgets := s.budgets ++ [s.budget] }
  let bufs := [0] :: p.filter (· ≠ [])
  have hbufs : bufs.flatten = 0 :: p.flatten := by
    rw [List.flatten_cons, List.flatten_filter_ne_nil, List.singleton_append]
  have hfits : ([] ++ bufs.flatten).length ≤ memorySize := by
    rw [List.nil_append, hbufs, List.length_cons]
    omega
  obtain ⟨mem, ewrpt, hrun, hwritten⟩ :=
    @run_writeBuff s₁ s.chip.mem txstartInit.toNat [] bufs (written_nil _ _ _) rfl hfits
  rw [List.nil_append, hbufs] at hwritten
  have hstop : stop.toNat = txstartInit.toNat + p.flatten.length := by
    rw [UInt16.toNat_ofNat', Nat.mod_eq_of_lt (by omega)]
  refine ⟨{ s₁.chip with mem, ewrpt }, ?_, rfl, hstop, hwritten⟩
  have hcommands : sendCommands polls p = List.replicate polls (.reg (.regbRead eir)) ++
      ([.reg (.regBfset econ1 econ1Txrst), .reg (.regBfclr econ1 econ1Txrst),
        .reg (.regBfclr eir (eirTxerif ||| eirTxif)), .reg (.regwWrite Enc28j60.ewrpt txstartInit),
        .reg (.regwWrite etxnd stop)] ++
      (bufs.map .writeBuff ++ [.reg (.regBfset econ1 econ1Txrts)])) := by
    simp [sendCommands, bufs, stop]
  rw [sendPbuf, if_pos haccepts]
  dsimp only
  rw [hcommands, run_append, run_polls, run_append]
  simp only [run_cons, run_nil, exec_txrst, exec_regBfclr]
  rw [run_append]
  have hregs : ∀ t : Transmitter, (t.exec (.reg (.regwWrite Enc28j60.ewrpt txstartInit))).exec
      (.reg (.regwWrite etxnd stop)) =
      { t with chip := { t.chip with ewrpt := txstartInit, etxnd := stop } } := fun _ => rfl
  rw [hregs]
  change ((s₁.run (bufs.map .writeBuff)).run [.reg (.regBfset econ1 econ1Txrts)]) = _
  rw [hrun, run_cons, run_nil, exec_txrts]

theorem sendPbuf_eq (haccepts : Accepts p) (hetxst : s.chip.etxst = txstartInit) (polls : Nat) :
    ∃ chip, s.sendPbuf polls p = { s with
        chip
        frame := some p.flatten
        budgets := s.budgets ++ [s.budget]
        starts := s.starts ++ [⟨0 :: p.flatten, some p.flatten⟩] } ∧
      chip.etxst = txstartInit ∧
      ringRead memorySize chip.mem txstartInit.toNat (p.flatten.length + 1) = 0 :: p.flatten := by
  obtain ⟨chip, hsent, hsame, hetxnd, hwritten⟩ := exists_sendPbuf (s := s) haccepts polls
  have hlength : p.flatten.length ≤ 1535 := Nat.le_of_add_le_add_left haccepts
  have hread : ringRead memorySize chip.mem txstartInit.toNat (p.flatten.length + 1) =
      0 :: p.flatten := by
    refine hwritten.read ?_
    rw [List.length_cons, memorySize]
    omega
  have hwindow : chip.window = 0 :: p.flatten := by
    have hcount : chip.etxnd.toNat + 1 - txstartInit.toNat = p.flatten.length + 1 := by omega
    rw [TxChip.window, hsame, hetxst, hcount, hread]
  exact ⟨chip, hwindow ▸ hsent, hsame.trans hetxst, hread⟩

end Commands

section Runs

variable {s t : Transmitter} {e : Event}

inductive Outcome (s : Transmitter) : Event → Transmitter → Prop
  | refused {polls p} : ¬ Accepts p → Outcome s (.sendPbuf polls p) s
  | accepted {polls p chip} : Accepts p → chip.etxst = txstartInit →
    ringRead memorySize chip.mem txstartInit.toNat (p.flatten.length + 1) = 0 :: p.flatten →
    Outcome s (.sendPbuf polls p) { s with
      chip
      frame := some p.flatten
      budgets := s.budgets ++ [s.budget]
      starts := s.starts ++ [⟨0 :: p.flatten, some p.flatten⟩] }
  | quiet {intflags estatValue} : intflags &&& eirTxerif = 0 → Outcome s (.irqTx intflags estatValue) s
  | complete {intflags estatValue chip} : intflags &&& eirTxerif = 0 → chip.etxst = txstartInit →
    chip.mem = s.chip.mem →
    Outcome s (.irqTx intflags estatValue) { s with chip, txRetryCount := 0, lates := 0 }
  | other {intflags estatValue} (erdpt) : s.lateCollision = false →
    Outcome s (.irqTx intflags estatValue) { s with chip := wholeArea s.chip erdpt }
  | again {intflags estatValue} (erdpt) : intflags &&& eirTxerif ≠ 0 → s.lateCollision = true →
    s.txRetryCount < maxTxRetrycount →
    Outcome s (.irqTx intflags estatValue) { s with
      chip := wholeArea s.chip erdpt
      txRetryCount := s.txRetryCount + 1
      lates := s.lates + 1
      starts := s.starts ++ [⟨(wholeArea s.chip erdpt).window, s.frame⟩] }
  | left {intflags estatValue} (erdpt) : ¬ s.txRetryCount < maxTxRetrycount →
    Outcome s (.irqTx intflags estatValue) { s with
      chip := wholeArea s.chip erdpt
      txRetryCount := s.txRetryCount + 1
      lates := s.lates + 1 }
  | chipWrites {a value} : ¬ s.InFrame a →
    Outcome s (.chipWrites a value)
      { s with chip := { s.chip with mem := Function.update s.chip.mem a value } }

theorem outcome_irqTx (h : s.chip.etxst = txstartInit) (intflags estatValue : UInt8) :
    Outcome s (.irqTx intflags estatValue) (s.irqTx intflags estatValue) := by
  unfold irqTx
  by_cases herror : intflags &&& eirTxerif = 0
  · rw [if_neg (not_not_intro herror)]
    split
    · rw [txComplete_eq]
      refine .complete herror ?_ ?_
      · split
        · rfl
        · exact h
      · split <;> rfl
    · exact .quiet herror
  · simp only [herror, and_false, if_false, ne_eq, not_false_eq_true, if_true]
    cases hlate : s.lateCollision with
    | false =>
      obtain ⟨erdpt, heq⟩ := txError_other hlate
      rw [heq]
      exact .other erdpt hlate
    | true =>
      by_cases hcount : s.txRetryCount < maxTxRetrycount
      · obtain ⟨erdpt, heq⟩ := txError_again hlate hcount
        rw [heq]
        exact .again erdpt herror hlate hcount
      · obtain ⟨erdpt, heq⟩ := txError_left hlate hcount
        rw [heq]
        exact .left erdpt hcount

theorem Step.outcome (hstep : Step s e t) (h : s.chip.etxst = txstartInit) : Outcome s e t := by
  obtain ⟨henabled, rfl⟩ := hstep
  cases e with
  | sendPbuf polls p =>
    by_cases haccepts : Accepts p
    · obtain ⟨chip, heq, hetxst, hread⟩ := sendPbuf_eq haccepts h polls
      rw [txStep, heq]
      exact .accepted haccepts hetxst hread
    · rw [txStep, sendPbuf, if_neg haccepts]
      exact .refused haccepts
  | irqTx intflags estatValue => exact outcome_irqTx h intflags estatValue
  | chipWrites a value => exact .chipWrites henabled

theorem Outcome.etxst (h : Outcome s e t) (hetxst : s.chip.etxst = txstartInit) :
    t.chip.etxst = txstartInit := by
  cases h with
  | accepted _ h => exact h
  | complete _ h => exact h
  | other => rfl
  | again => rfl
  | left => rfl
  | _ => exact hetxst

theorem Outcome.sound (h : Outcome s e t) (hsound : t.Sound) : s.Sound := by
  cases h with
  | accepted =>
    exact ⟨fun start hmem => hsound.starts start (List.mem_append_left _ hmem),
      fun budget hmem => hsound.budgets budget (List.mem_append_left _ hmem)⟩
  | again =>
    exact ⟨fun start hmem => hsound.starts start (List.mem_append_left _ hmem), hsound.budgets⟩
  | _ => exact ⟨hsound.starts, hsound.budgets⟩

structure Loaded (s : Transmitter) : Prop where
  etxst : s.chip.etxst = txstartInit
  count : s.txRetryCount = .ofNat s.lates
  frame : ∀ bytes ∈ s.frame, bytes.length ≤ 1535 ∧
    ringRead memorySize s.chip.mem txstartInit.toNat (bytes.length + 1) = 0 :: bytes

theorem Outcome.loaded (h : Outcome s e t) (hloaded : Loaded s) : Loaded t := by
  refine ⟨h.etxst hloaded.etxst, ?_, ?_⟩
  · have hcount := hloaded.count
    cases h with
    | complete => rfl
    | again | left =>
      dsimp only
      rw [hcount]
      exact (UInt16.ofNat_add s.lates 1).symm
    | _ => exact hcount
  · have hframe := hloaded.frame
    cases h with
    | @accepted polls p chip haccepts hetxst hread =>
      rintro bytes ⟨⟩
      exact ⟨Nat.le_of_add_le_add_left haccepts, hread⟩
    | complete _ _ hmem =>
      intro bytes hbytes
      dsimp only
      rw [hmem]
      exact hframe bytes hbytes
    | @chipWrites a value hout =>
      intro bytes hbytes
      obtain ⟨hlength, hread⟩ := hframe bytes hbytes
      have hstart : txstartInit.toNat = 6656 := rfl
      have hmemory : memorySize = 8192 := rfl
      refine ⟨hlength, Eq.trans ?_ hread⟩
      apply List.map_congr_left
      intro i hi
      have hi := List.mem_range.mp hi
      have hcell : (txstartInit.toNat + i) % memorySize = txstartInit.toNat + i :=
        Nat.mod_eq_of_lt (by omega)
      rw [hcell]
      refine Function.update_of_ne ?_ _ _
      rintro rfl
      exact hout ⟨bytes, hbytes, by omega, by omega⟩
    | _ => exact hframe

theorem Loaded.toNat_count (h : Loaded s) : s.txRetryCount.toNat = s.lates % 65536 := by
  rw [h.count, UInt16.toNat_ofNat']

theorem Loaded.count_lt_iff (h : Loaded s) :
    s.txRetryCount < maxTxRetrycount ↔ s.lates % 65536 < 16 := by
  rw [UInt16.lt_iff_toNat_lt, h.toNat_count]
  exact Iff.rfl

theorem Loaded.budget_eq_iff (h : Loaded s) : s.budget = maxTxRetrycount ↔ s.lates % 65536 = 0 := by
  have hcount := h.toNat_count
  have hmax : maxTxRetrycount.toNat = 16 := rfl
  unfold budget
  split
  next hlt =>
    have hle : s.txRetryCount ≤ maxTxRetrycount := UInt16.le_of_lt hlt
    have hle' := UInt16.le_iff_toNat_le.mp hle
    rw [← UInt16.toNat_inj, UInt16.toNat_sub_of_le _ _ hle]
    omega
  next hge =>
    have hge' := mt UInt16.lt_iff_toNat_lt.mpr hge
    refine iff_of_false (by decide) ?_
    omega

/-- The whole area is the window of the frame exactly if the frame fills it. -/
theorem Loaded.window_iff (h : Loaded s) (erdpt : UInt16) :
    (∃ bytes, s.frame = some bytes ∧ (wholeArea s.chip erdpt).window = 0 :: bytes) ↔
      ∃ bytes, s.frame = some bytes ∧ bytes.length = 1535 := by
  have hwindow : (wholeArea s.chip erdpt).window =
      ringRead memorySize s.chip.mem txstartInit.toNat 1536 := by
    have hcount : txendInit.toNat + 1 - txstartInit.toNat = 1536 := by decide
    simp only [TxChip.window, wholeArea, hcount]
  rw [hwindow]
  constructor
  · rintro ⟨bytes, hframe, hread⟩
    refine ⟨bytes, hframe, ?_⟩
    have hlength := congrArg List.length hread
    rw [length_ringRead, List.length_cons] at hlength
    omega
  · rintro ⟨bytes, hframe, hlength⟩
    obtain ⟨-, hread⟩ := h.frame bytes hframe
    rw [hlength] at hread
    exact ⟨bytes, hframe, hread⟩

theorem Outcome.kept (h : Outcome s e t) (hloaded : Loaded s) (hsound : t.Sound) : Kept s e := by
  cases h with
  | refused hrefused => exact fun haccepts => absurd haccepts hrefused
  | accepted =>
    intro _
    exact hloaded.budget_eq_iff.mp
      (hsound.budgets _ (List.mem_append_right _ (List.mem_singleton_self _)))
  | quiet hnone => exact fun herror => absurd hnone herror
  | complete hnone => exact fun herror => absurd hnone herror
  | other _ hlate =>
    intro _ hlate'
    rw [hlate] at hlate'
    cases hlate'
  | again erdpt =>
    intro _ _ _
    obtain ⟨bytes, hframe, hwindow⟩ := hsound.starts ⟨(wholeArea s.chip erdpt).window, s.frame⟩
      (List.mem_append_right _ (List.mem_singleton_self _))
    dsimp only at hframe hwindow
    exact (hloaded.window_iff erdpt).mp ⟨bytes, hframe, hwindow⟩
  | left _ hcount => exact fun _ _ hlt => absurd (hloaded.count_lt_iff.mpr hlt) hcount
  | chipWrites => trivial

theorem Outcome.sound_of_kept (h : Outcome s e t) (hloaded : Loaded s) (hsound : s.Sound)
    (hkept : Kept s e) : t.Sound := by
  cases h with
  | accepted haccepts =>
    refine ⟨fun start hmem => ?_, fun budget hmem => ?_⟩
    · obtain hmem | hmem := List.mem_append.mp hmem
      · exact hsound.starts start hmem
      · rw [List.mem_singleton.mp hmem]
        exact ⟨_, rfl, rfl⟩
    · obtain hmem | hmem := List.mem_append.mp hmem
      · exact hsound.budgets budget hmem
      · rw [List.mem_singleton.mp hmem]
        exact hloaded.budget_eq_iff.mpr (hkept haccepts)
  | again erdpt herror hlate hcount =>
    refine ⟨fun start hmem => ?_, hsound.budgets⟩
    obtain hmem | hmem := List.mem_append.mp hmem
    · exact hsound.starts start hmem
    · rw [List.mem_singleton.mp hmem]
      obtain ⟨bytes, hframe, hwindow⟩ := (hloaded.window_iff erdpt).mpr
        (hkept herror hlate (hloaded.count_lt_iff.mp hcount))
      dsimp only
      exact ⟨bytes, hframe, hwindow⟩
  | _ => exact ⟨hsound.starts, hsound.budgets⟩

theorem init_eq (mem : Nat → UInt8) :
    init mem = ⟨⟨mem, txstartInit, txendInit, 0, 0⟩, 0, none, 0, [], []⟩ := by
  have hcommands : txfifoInit txstartInit txendInit =
      [.reg (.regwWrite Enc28j60.etxst txstartInit), .reg (.regwWrite etxnd txendInit)] := by decide
  rw [init, hcommands]
  rfl

theorem loaded_init (mem : Nat → UInt8) : Loaded (init mem) := by
  rw [init_eq]
  exact ⟨rfl, rfl, fun bytes hbytes => by cases hbytes⟩

/-- Every transmission that is started is one of the frame accepted last, and every frame has its
retransmissions before it, exactly in the runs that keep to the conditions at every step. -/
theorem transmissions_sound_iff {mem : Nat → UInt8} {es : List Event}
    (hrun : Run Step (init mem) es t) :
    t.Sound ↔ Run (Guarded Kept Step) (init mem) es t := by
  have hempty : (init mem).Sound := by
    rw [init_eq]
    exact ⟨fun _ hmem => (by cases hmem), fun _ hmem => (by cases hmem)⟩
  constructor
  · intro hsound
    refine (hrun.guarded_of_last Loaded Sound (fun s e t hloaded hstep => ?_)
      (fun s e t hloaded hstep hsound => ?_) (loaded_init mem) hsound).2
    · exact (hstep.outcome hloaded.etxst).loaded hloaded
    · have houtcome := hstep.outcome hloaded.etxst
      exact ⟨houtcome.sound hsound, houtcome.kept hloaded hsound⟩
  · intro hkept
    refine (hkept.invariant (fun s => Loaded s ∧ s.Sound) ?_ ⟨loaded_init mem, hempty⟩).2
    rintro s e t ⟨hloaded, hsound⟩ ⟨hkept, hstep⟩
    have houtcome := hstep.outcome hloaded.etxst
    exact ⟨houtcome.loaded hloaded, houtcome.sound_of_kept hloaded hsound hkept⟩

end Runs

section Sample

def runEvents (es : List Event) : Transmitter := es.foldl txStep (init fun _ => 0)

def quietEvents : List Event :=
  [.sendPbuf 1 [[1, 2], [], [3]], .irqTx eirTxif 0, .sendPbuf 3 [[4]]]

theorem quietEvents_sound :
    (runEvents quietEvents).Sound ∧ (runEvents quietEvents).starts =
      [⟨[0, 1, 2, 3], some [1, 2, 3]⟩, ⟨[0, 4], some [4]⟩] := by
  have hkept : Run (Guarded Kept Step) (init fun _ => 0) quietEvents (runEvents quietEvents) :=
    .guarded_of_feasible (by decide +kernel)
  exact ⟨(transmissions_sound_iff hkept.of_guarded).mpr hkept, by decide +kernel⟩

def lateEvents : List Event :=
  [.sendPbuf 1 [[1, 2, 3]], .chipWrites 7 0x20, .irqTx eirTxerif 0]

/-- The whole transmit area is sent again, and the next frame has one retransmission less. -/
theorem lateEvents_unsound :
    Run Step (init fun _ => 0) lateEvents (runEvents lateEvents) ∧
      ¬ (runEvents lateEvents).Sound ∧
      (runEvents (lateEvents ++ [.sendPbuf 1 [[4]]])).budgets = [16, 15] := by
  have hfirst : Run Step (init fun _ => 0) (lateEvents.take 2) (runEvents (lateEvents.take 2)) :=
    .of_feasible (by decide +kernel)
  have hlast : Step (runEvents (lateEvents.take 2)) (.irqTx eirTxerif 0) (runEvents lateEvents) :=
    ⟨trivial, rfl⟩
  refine ⟨hfirst.append (.single hlast), fun hsound => ?_, by decide +kernel⟩
  have hloaded : Loaded (runEvents (lateEvents.take 2)) := by
    refine hfirst.invariant Loaded (fun s e t hloaded hstep => ?_) (loaded_init _)
    exact (hstep.outcome hloaded.etxst).loaded hloaded
  obtain ⟨bytes, hframe, hlength⟩ := (hlast.outcome hloaded.etxst).kept hloaded hsound (by decide)
    (by decide +kernel) (by decide +kernel)
  have hthree : (runEvents (lateEvents.take 2)).frame = some [1, 2, 3] := by decide +kernel
  obtain rfl := Option.some.inj (hframe.symm.trans hthree)
  exact absurd hlength (by decide)

end Sample

end Transmitter

end RadProt.Enc28j60
