import NesMachine.Processor.Trace
import NesMachine.Proofs.Panics

/-!
# Looking at a program, one answered peek after the other

Disassembling, capturing a line for a trace and reading a text out of memory make nothing but
peeks. Where each peek is answered, so is the whole.
-/
namespace NesMachine.Checked

section Looking

variable (peek : UInt16 → Except Panic UInt8)

def peekMany (a : UInt16) : (count : Nat) → Except Panic (List UInt8)
  | 0 => return []
  | count + 1 => return (← peek a) :: (← peekMany (a + 1) count)

/-- The bytes from an address on that come before a zero. -/
def peekText (a : UInt16) : (count : Nat) → Except Panic (List UInt8)
  | 0 => return []
  | count + 1 => do
    let byte ← peek a
    if byte = 0 then return []
    return byte :: (← peekText (a + 1) count)

def peekWordInPage (pointer : UInt16) : Except Panic UInt16 :=
  return wordOf (← peek pointer) (← peek (nextInPage pointer))

def peekZeroPageWord (pointer : UInt8) : Except Panic UInt16 :=
  return wordOf (← peek (zeroPageAddress pointer)) (← peek (zeroPageAddress (pointer + 1)))

def viewZeroPageIndexed (r : Registers) (base : UInt8) (index : IndexRegister) :
    Except Panic OperandView := do
  let a := base + index.value r
  return .zeroPageIndexed base index a (← peek (zeroPageAddress a))

def viewAbsoluteIndexed (r : Registers) (base : UInt16) (index : IndexRegister) :
    Except Panic OperandView := do
  let a := base + (index.value r).toUInt16
  return .absoluteIndexed base index a (← peek a)

def viewOperand (r : Registers) (a : UInt16) (i : Instruction) : Except Panic OperandView := do
  let byte ← peek (a + 1)
  let word := wordOf byte (← peek (a + 1 + 1))
  match i.mode with
  | .implied => return .none
  | .accumulator => return .accumulator
  | .immediate => return .immediate byte
  | .zeroPage => return .zeroPage byte (← peek (zeroPageAddress byte))
  | .zeroPageX => viewZeroPageIndexed peek r byte .x
  | .zeroPageY => viewZeroPageIndexed peek r byte .y
  | .absolute =>
    if i.mnemonic = .jmp ∨ i.mnemonic = .jsr then return .target word
    return .absolute word (← peek word)
  | .absoluteX => viewAbsoluteIndexed peek r word .x
  | .absoluteY => viewAbsoluteIndexed peek r word .y
  | .indirect => return .indirect word (← peekWordInPage peek word)
  | .indexedIndirect =>
    let pointer := byte + r.x
    let effective ← peekZeroPageWord peek pointer
    return .indexedIndirect byte pointer effective (← peek effective)
  | .indirectIndexed =>
    let base ← peekZeroPageWord peek byte
    let effective := base + r.y.toUInt16
    return .indirectIndexed byte base effective (← peek effective)
  | .relative => return .target (displaced (a + 2) byte)

def disassemble (r : Registers) (a : UInt16) : Except Panic Disassembly := do
  let instruction := Instruction.decode (← peek a)
  return {
    address := a
    bytes := ← peekMany peek a instruction.mode.size
    instruction
    operand := ← viewOperand peek r a instruction }

def captureLine (r : Registers) (cycles : Nat) : Except Panic TraceLine :=
  return ⟨← disassemble peek r r.pc, r, cycles⟩

end Looking

section Answered

variable {β : Type} [Bus β] (bus : β)

theorem peekMany_eq (a : UInt16) (count : Nat) :
    peekMany (fun a => .ok (Bus.peek bus a)) a count = .ok (Bus.peekMany bus a count) := by
  induction count generalizing a with
  | zero => rfl
  | succ count ih =>
    rw [peekMany, ih]
    rfl

theorem peekText_eq (a : UInt16) (count : Nat) :
    peekText (fun a => .ok (Bus.peek bus a)) a count =
      .ok ((Bus.peekMany bus a count).takeWhile (· ≠ 0)) := by
  induction count generalizing a with
  | zero => rfl
  | succ count ih =>
    rw [peekText, ih, ok_bind, Bus.peekMany]
    by_cases zero : Bus.peek bus a = 0
    · rw [if_pos zero, List.takeWhile_cons_of_neg (by simpa using zero)]
      rfl
    · rw [if_neg zero, List.takeWhile_cons_of_pos (by simpa using zero)]
      rfl

theorem viewOperand_eq (r : Registers) (a : UInt16) (i : Instruction) :
    viewOperand (fun a => .ok (Bus.peek bus a)) r a i = .ok (.ofInstruction bus r a i) := by
  unfold viewOperand OperandView.ofInstruction
  cases i.mode with
  | absolute =>
    simp only [ok_bind]
    split <;> rfl
  | _ => rfl

theorem disassemble_eq (r : Registers) (a : UInt16) :
    disassemble (fun a => .ok (Bus.peek bus a)) r a = .ok (NesMachine.disassemble bus r a) := by
  rw [disassemble, ok_bind]
  simp only [peekMany_eq, viewOperand_eq]
  rfl

theorem captureLine_eq (r : Registers) (cycles : Nat) :
    captureLine (fun a => .ok (Bus.peek bus a)) r cycles = .ok (.capture bus r cycles) := by
  rw [captureLine, disassemble_eq]
  rfl

end Answered

end NesMachine.Checked
