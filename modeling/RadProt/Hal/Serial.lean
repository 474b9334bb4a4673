import RadProt.Lib.CString
import RadProt.Lib.Run
import RadProt.Hal.RingBuffer

namespace RadProt.Hal

open RadProt.Lib

structure Serial where
  uartBuffer : RingBuffer UInt8
  stringFinished : Bool
  receivedChars : Nat
  timeoutDetected : Bool

def Serial.new (uartBufferSize : Nat) (cells : Nat → UInt8) : Serial where
  uartBuffer := .new uartBufferSize cells
  stringFinished := false
  receivedChars := 0
  timeoutDetected := false

def isTerminator (c : UInt8) : Bool := c = 13 || c = 10

def handleReceivedChar (s : Serial) (c : UInt8) : Serial × Bool :=
  if s.timeoutDetected then
    ({ uartBuffer := s.uartBuffer.reset
       stringFinished := false
       receivedChars := 0
       timeoutDetected := false }, false)
  else if isTerminator c then
    if 0 < s.receivedChars then
      ({ s with
         uartBuffer := (s.uartBuffer.push 0).2
         stringFinished := true
         receivedChars := 0 }, true)
    else (s, false)
  else if s.uartBuffer.spaceLeft = 2 then
    ({ s with
       uartBuffer := ((s.uartBuffer.push c).2.push 0).2
       stringFinished := true
       receivedChars := 0 }, true)
  else
    ({ s with
       uartBuffer := (s.uartBuffer.push c).2
       receivedChars := s.receivedChars + 1 }, s.receivedChars + 1 = 1)

/-- The loop of `read_from_receive_buffer`, at most `fuel` times around: the bytes it stores, and
the ring it leaves. A byte popped when the buffer is full is dropped. -/
def popLoop : (fuel : Nat) → RingBuffer UInt8 → (bufferSize : Nat) → List UInt8 × RingBuffer UInt8
  | 0, r, _ => ([], r)
  | fuel + 1, r, bufferSize =>
    match r.pop with
    | (none, r) => ([], r)
    | (some c, r) =>
      if 1 < bufferSize then
        if c = 0 then ([c], r)
        else
          let (bytes, r) := popLoop fuel r (bufferSize - 1)
          (c :: bytes, r)
      else ([], r)

def readFromReceiveBuffer (s : Serial) (bufferSize : Nat) : List UInt8 × Serial :=
  let (bytes, r) := popLoop s.uartBuffer.currentSize s.uartBuffer bufferSize
  (bytes, { s with uartBuffer := r, stringFinished := false })

def receive (s : Serial) (chars : List UInt8) : Serial :=
  chars.foldl (fun s c => (handleReceivedChar s c).1) s

/-- What comes in while `read_string` waits, up to its next look at the clock. -/
inductive Wake
  | notified (chars : List UInt8)
  /-- The time is over. Bytes come in before `timeout_detected` is set, `between` that and the
  reading of the ring, and `after` it, while what was read is printed. -/
  | timedOut (before between after : List UInt8)

def timeoutBranch (s : Serial) (between after : List UInt8) (bufferSize : Nat) : Serial :=
  receive (readFromReceiveBuffer (receive { s with timeoutDetected := true } between) bufferSize).2
    after

/-- `read_string`: the bytes it returns, none after a timeout; `none` while it waits. -/
def readString (bufferSize : Nat) (s : Serial) (wakes : List Wake) :
    Option (List UInt8 × Serial) :=
  if s.stringFinished then some (readFromReceiveBuffer s bufferSize)
  else
    match wakes with
    | [] => none
    | .notified chars :: wakes => readString bufferSize (receive s chars) wakes
    | .timedOut before between after :: _ =>
      some ([], timeoutBranch (receive s before) between after bufferSize)

theorem popLoop_stores {bufferSize : Nat} (fuel : Nat) (r : RingBuffer UInt8) (h : 0 < bufferSize) :
    (popLoop fuel r bufferSize).1.length < bufferSize ∧ ∃ line, 0 ∉ line ∧
      ((popLoop fuel r bufferSize).1 = line ∨ (popLoop fuel r bufferSize).1 = line ++ [0]) := by
  have hnone : ([] : List UInt8).length < bufferSize ∧ ∃ line : List UInt8, 0 ∉ line ∧
      ([] = line ∨ [] = line ++ [0]) := ⟨h, [], List.not_mem_nil, .inl rfl⟩
  induction fuel generalizing r bufferSize with
  | zero => exact hnone
  | succ fuel ih =>
    rw [popLoop]
    split
    next => exact hnone
    next c r' hpop =>
      by_cases hroom : 1 < bufferSize
      · rw [if_pos hroom]
        by_cases hc : c = 0
        · rw [if_pos hc, hc]
          exact ⟨hroom, [], List.not_mem_nil, .inr rfl⟩
        · rw [if_neg hc]
          obtain ⟨hlength, line, h0, hline⟩ := @ih (bufferSize - 1) r' (by omega)
            ⟨by rw [List.length_nil]; omega, hnone.2⟩
          refine ⟨by rw [List.length_cons]; omega, c :: line, ?_, ?_⟩
          · rw [List.mem_cons, not_or]
            exact ⟨Ne.symm hc, h0⟩
          · exact hline.imp (congrArg (c :: ·)) (congrArg (c :: ·))
      · rw [if_neg hroom]
        exact hnone

theorem readString_stores {bufferSize : Nat} {s s' : Serial} {wakes : List Wake}
    {bytes : List UInt8} (h : 0 < bufferSize)
    (hread : readString bufferSize s wakes = some (bytes, s')) :
    bytes.length < bufferSize ∧ (bytes = cString bytes ∨ bytes = cString bytes ++ [0]) := by
  have hstored : ∀ {s : Serial}, some (readFromReceiveBuffer s bufferSize) = some (bytes, s') →
      bytes.length < bufferSize ∧ (bytes = cString bytes ∨ bytes = cString bytes ++ [0]) := by
    intro s hs
    obtain ⟨hlength, line, h0, hline⟩ := popLoop_stores s.uartBuffer.currentSize s.uartBuffer h
    obtain rfl : (popLoop s.uartBuffer.currentSize s.uartBuffer bufferSize).1 = bytes :=
      congrArg Prod.fst (Option.some.inj hs)
    refine ⟨hlength, ?_⟩
    obtain hline | hline := hline
    · rw [hline, cString_eq_self h0]
      exact .inl rfl
    · rw [hline, cString_append h0, cString_zero_cons, List.append_nil]
      exact .inr rfl
  induction wakes generalizing s with
  | nil =>
    rw [readString] at hread
    split at hread
    next => exact hstored hread
    next => cases hread
  | cons wake wakes ih =>
    cases wake with
    | notified chars =>
      rw [readString] at hread
      split at hread
      next => exact hstored hread
      next => exact ih hread
    | timedOut before between after =>
      rw [readString] at hread
      split at hread
      next => exact hstored hread
      next =>
        obtain rfl : [] = bytes := congrArg Prod.fst (Option.some.inj hread)
        exact ⟨h, .inl rfl⟩

end RadProt.Hal
