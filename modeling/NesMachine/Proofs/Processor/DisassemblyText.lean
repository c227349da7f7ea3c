import Mathlib.Data.List.Nodup
import NesMachine.Proofs.Processor.DisassemblyLockstep
import NesMachine.Proofs.Text.Hexadecimal

/-!
# Instructions are told from their text

The text of an instruction is a star if it is undocumented, three letters, and an operand in
one of eleven forms, each of a width of its own. No two of its parts run into each other, so
the text can be read in one way only, and with the address at which it stands the bytes of the
operand are known, whatever memory and registers were when it was written.
-/
namespace NesMachine

namespace Mnemonic

def all : List Mnemonic :=
  [.adc, .and, .asl, .bcc, .bcs, .beq, .bit, .bmi, .bne, .bpl, .brk, .bvc, .bvs, .clc,
    .cld, .cli, .clv, .cmp, .cpx, .cpy, .dec, .dex, .dey, .eor, .inc, .inx, .iny, .jmp,
    .jsr, .lda, .ldx, .ldy, .lsr, .nop, .ora, .pha, .php, .pla, .plp, .rol, .ror, .rti,
    .rts, .sbc, .sec, .sed, .sei, .sta, .stx, .sty, .tax, .tay, .tsx, .txa, .txs, .tya,
    .ahx, .alr, .anc, .arr, .axs, .dcp, .isb, .kil, .las, .lax, .lxa, .rla, .rra, .sax,
    .shx, .shy, .slo, .sre, .tas, .xaa]

theorem mem_all (mnemonic : Mnemonic) : mnemonic ∈ all := by
  cases mnemonic <;> decide

theorem name_inj {mnemonic other : Mnemonic} : mnemonic.name = other.name ↔ mnemonic = other := by
  have different : (all.map name).Nodup := by decide +kernel
  exact ⟨List.inj_on_of_nodup_map different (mem_all _) (mem_all _), congrArg name⟩

@[simp] theorem length_name (mnemonic : Mnemonic) : mnemonic.name.length = 3 := by
  cases mnemonic <;> rfl

/-- A name begins with a letter, never with a star. -/
theorem exists_letter (mnemonic : Mnemonic) :
    ∃ letter rest, mnemonic.name.toList = letter :: rest ∧ letter ≠ '*' := by
  cases mnemonic <;> exact ⟨_, _, rfl, by decide⟩

end Mnemonic

namespace IndexRegister

@[simp] theorem length_name (index : IndexRegister) : index.name.length = 1 := by
  cases index <;> rfl

@[simp] theorem append_name_inj {s t : String} {index other : IndexRegister} :
    s ++ index.name = t ++ other.name ↔ s = t ∧ index = other := by
  rw [Text.append_inj_of_length (by simp)]
  cases index <;> cases other <;> simp [name]

end IndexRegister

namespace OperandView

/-- The number of characters of an operand; no two forms have the same. -/
def width : OperandView → Nat
  | .none => 0
  | .accumulator => 1
  | .immediate .. => 4
  | .target .. => 5
  | .zeroPage .. => 8
  | .absolute .. => 10
  | .indirect .. => 14
  | .zeroPageIndexed .. => 15
  | .absoluteIndexed .. => 19
  | .indexedIndirect .. => 24
  | .indirectIndexed .. => 26

theorem length_render (view : OperandView) : view.render.length = view.width := by
  cases view <;> simp [render, width] <;> rfl

theorem width_le (view : OperandView) : view.width ≤ 26 := by
  cases view <;> simp [width]

/-- An operand is shown in full. -/
theorem render_inj {view other : OperandView} : view.render = other.render ↔ view = other := by
  by_cases widths : view.width = other.width
  · -- Two operands of one width have the same form.
    cases view <;> cases other <;> cases widths <;> simp [render, and_assoc]
  · refine iff_of_false (fun same => widths ?_) (fun same => widths (congrArg width same))
    rw [← length_render, same, length_render]

/-- What stands behind the name of an operation: a blank and the operand, if there is one. -/
def afterName : OperandView → String
  | .none => ""
  | view => " " ++ view.render

theorem afterName_of_ne {view : OperandView} (some : view ≠ .none) :
    view.afterName = " " ++ view.render := by
  cases view with
  | none => exact absurd rfl some
  | _ => rfl

theorem afterName_eq_empty_iff {view : OperandView} : view.afterName = "" ↔ view = .none := by
  refine ⟨fun empty => ?_, congrArg afterName⟩
  by_contra some
  rw [afterName_of_ne some, String.append_eq_empty_iff] at empty
  exact absurd empty.1 (by decide)

theorem afterName_inj {view other : OperandView} :
    view.afterName = other.afterName ↔ view = other := by
  by_cases first : view = .none
  · subst first
    exact eq_comm.trans (afterName_eq_empty_iff.trans eq_comm)
  · by_cases second : other = .none
    · subst second
      exact afterName_eq_empty_iff
    · rw [afterName_of_ne first, afterName_of_ne second, String.append_right_inj, render_inj]

/-! Reading an operand back. -/

/-- The addressing mode that shows an operand in this form. -/
def mode (mnemonic : Mnemonic) : OperandView → Mode
  | .none => .implied
  | .accumulator => .accumulator
  | .immediate _ => .immediate
  | .zeroPage .. => .zeroPage
  | .zeroPageIndexed _ .x .. => .zeroPageX
  | .zeroPageIndexed _ .y .. => .zeroPageY
  | .absolute .. => .absolute
  | .absoluteIndexed _ .x .. => .absoluteX
  | .absoluteIndexed _ .y .. => .absoluteY
  | .target _ => if mnemonic.isBranch then .relative else .absolute
  | .indirect .. => .indirect
  | .indexedIndirect .. => .indexedIndirect
  | .indirectIndexed .. => .indirectIndexed

/-- The operand bytes of an instruction that shows this; `following` is the address after the
instruction, from which a branch counts. -/
def operandBytes (following : UInt16) (mnemonic : Mnemonic) : OperandView → List UInt8
  | .none | .accumulator => []
  | .immediate byte | .zeroPage byte _ | .zeroPageIndexed byte .. | .indexedIndirect byte ..
  | .indirectIndexed byte .. => [byte]
  | .absolute word _ | .absoluteIndexed word .. | .indirect word _ =>
    [lowByte word, highByte word]
  | .target word =>
    if mnemonic.isBranch then [lowByte (word - following)] else [lowByte word, highByte word]

variable {β : Type} [Bus β]

theorem isBranch_of_suits {mnemonic : Mnemonic} (suits : mnemonic.action.suits .relative = true) :
    mnemonic.isBranch = true := by
  cases mnemonic with
  | bcc | bcs | beq | bmi | bne | bpl | bvc | bvs => rfl
  | _ => cases suits

theorem mode_ofInstruction (bus : β) (r : Registers) (address : UInt16) (i : Instruction)
    (suits : i.mnemonic.action.suits i.mode = true) :
    (ofInstruction bus r address i).mode i.mnemonic = i.mode := by
  obtain ⟨mnemonic, mode, cycles, official⟩ := i
  cases mode with
  | absolute =>
    by_cases goes : mnemonic = .jmp ∨ mnemonic = .jsr
    · rw [ofInstruction, if_pos goes]
      rcases goes with rfl | rfl <;> rfl
    · rw [ofInstruction, if_neg goes]
      rfl
  | relative => exact if_pos (isBranch_of_suits suits)
  | _ => rfl

/-- A place that is reached by an offset gives the offset back. -/
theorem lowByte_displaced_sub (a : UInt16) (offset : UInt8) :
    lowByte (displaced a offset - a) = offset := by
  have back (w : UInt16) : a + w - a = w := by grind
  have backPage (w : UInt16) : a + w - 256 - a = w - 256 := by grind
  unfold displaced
  split
  · rw [back]
    simp [lowByte]
  · have page : offset - 256 = offset := by grind
    rw [backPage]
    simp [lowByte, page]

theorem operandBytes_ofInstruction (bus : β) (r : Registers) (address : UInt16) (i : Instruction)
    (suits : i.mnemonic.action.suits i.mode = true) :
    (ofInstruction bus r address i).operandBytes (address + 2) i.mnemonic =
      Bus.peekMany bus (address + 1) (i.mode.size - 1) := by
  obtain ⟨mnemonic, mode, cycles, official⟩ := i
  have word (view : OperandView)
      (bytes : view.operandBytes (address + 2) mnemonic =
        [lowByte (Bus.peekWord bus (address + 1)), highByte (Bus.peekWord bus (address + 1))]) :
      view.operandBytes (address + 2) mnemonic = Bus.peekMany bus (address + 1) 2 := by
    rw [bytes, Bus.peekWord, lowByte_wordOf, highByte_wordOf]
    rfl
  cases mode with
  | absolute =>
    apply word
    by_cases goes : mnemonic = .jmp ∨ mnemonic = .jsr
    · rw [ofInstruction, if_pos goes]
      rcases goes with rfl | rfl <;> rfl
    · rw [ofInstruction, if_neg goes]
      rfl
  | absoluteX | absoluteY | indirect => exact word _ rfl
  | relative =>
    have offset := lowByte_displaced_sub (address + 2) (Bus.peek bus (address + 1))
    rw [ofInstruction, operandBytes, if_pos (isBranch_of_suits suits), offset]
    rfl
  | _ => rfl

end OperandView

namespace Instruction

def documentedOpcodes : List UInt8 :=
  ((List.range 256).map UInt8.ofNat).filter fun opcode => (decode opcode).official

theorem mem_documentedOpcodes {opcode : UInt8} (official : (decode opcode).official = true) :
    opcode ∈ documentedOpcodes := by
  refine List.mem_filter.mpr ⟨List.mem_map.mpr ⟨opcode.toNat, ?_, ?_⟩, official⟩
  · exact List.mem_range.mpr opcode.toNat_lt
  · exact UInt8.ofNat_toNat

/-- No two documented opcodes stand for the same operation in the same mode. -/
theorem opcode_inj_of_official {opcode other : UInt8}
    (official : (decode opcode).official = true) (official' : (decode other).official = true)
    (mnemonic : (decode opcode).mnemonic = (decode other).mnemonic)
    (mode : (decode opcode).mode = (decode other).mode) : opcode = other := by
  have different : (documentedOpcodes.map fun opcode =>
      ((decode opcode).mnemonic, (decode opcode).mode)).Nodup := by decide +kernel
  exact List.inj_on_of_nodup_map different (mem_documentedOpcodes official)
    (mem_documentedOpcodes official') (Prod.ext mnemonic mode)

end Instruction

namespace Disassembly

theorem body_eq (d : Disassembly) :
    d.body = d.instruction.mnemonic.name ++ d.operand.afterName := by
  unfold Disassembly.body
  split
  · next none => rw [none, OperandView.afterName, String.append_empty]
  · next some => rw [OperandView.afterName_of_ne some, ← String.append_assoc]

theorem body_inj {d e : Disassembly} : d.body = e.body ↔
    d.instruction.mnemonic = e.instruction.mnemonic ∧ d.operand = e.operand := by
  rw [body_eq, body_eq, Text.append_inj_of_length_left (by simp), Mnemonic.name_inj,
    OperandView.afterName_inj]

theorem exists_letter (d : Disassembly) :
    ∃ letter rest, d.body.toList = letter :: rest ∧ letter ≠ '*' := by
  obtain ⟨letter, rest, name, other⟩ := d.instruction.mnemonic.exists_letter
  refine ⟨letter, rest ++ d.operand.afterName.toList, ?_, other⟩
  rw [body_eq, String.toList_append, name, List.cons_append]

theorem body_ne_star (d : Disassembly) (s : String) : d.body ≠ "*" ++ s := by
  intro same
  obtain ⟨letter, rest, body, other⟩ := d.exists_letter
  rw [same, String.toList_append] at body
  exact other (List.cons.inj body).1.symm

/-- All that a text is made of can be told from it. -/
theorem text_inj {d e : Disassembly} : d.text = e.text ↔
    d.instruction.official = e.instruction.official ∧
      d.instruction.mnemonic = e.instruction.mnemonic ∧ d.operand = e.operand := by
  rw [← body_inj, text, text]
  cases d.instruction.official <;> cases e.instruction.official
  · simp
  · simpa using (e.body_ne_star d.body).symm
  · simpa using d.body_ne_star e.body
  · simp

variable {β γ : Type} [Bus β] [Bus γ]

theorem bytes_disassemble (bus : β) (r : Registers) (address : UInt16) :
    let d := disassemble bus r address
    d.bytes = Bus.peek bus address ::
      d.operand.operandBytes (address + 2) d.instruction.mnemonic := by
  intro d
  have operand : d.operand.operandBytes (address + 2) d.instruction.mnemonic =
      Bus.peekMany bus (address + 1) (d.instruction.mode.size - 1) :=
    OperandView.operandBytes_ofInstruction bus r address _ (Instruction.suits_decode _)
  rw [operand]
  show Bus.peekMany bus address d.instruction.mode.size = _
  cases d.instruction.mode <;> rfl

/-- Two instructions that have the same text at the same address, in whatever memories and with
whatever registers, are the same operation in the same mode, both documented or neither, with
the same operand bytes; and of a documented one the opcode is the same as well. -/
theorem instruction_of_text (bus : β) (other : γ) (r r' : Registers) (address : UInt16) :
    let d := disassemble bus r address
    let e := disassemble other r' address
    let i := Instruction.decode (Bus.peek bus address)
    let j := Instruction.decode (Bus.peek other address)
    d.text = e.text →
      i.mnemonic = j.mnemonic ∧ i.mode = j.mode ∧ i.official = j.official ∧
        d.bytes.tail = e.bytes.tail ∧ (i.official = true → d.bytes = e.bytes) := by
  intro d e i j same
  obtain ⟨official, mnemonic, operand⟩ := text_inj.mp same
  have mode : i.mode = j.mode := by
    have first : d.operand.mode i.mnemonic = i.mode :=
      OperandView.mode_ofInstruction bus r address i (Instruction.suits_decode _)
    have second : e.operand.mode j.mnemonic = j.mode :=
      OperandView.mode_ofInstruction other r' address j (Instruction.suits_decode _)
    have names : i.mnemonic = j.mnemonic := mnemonic
    rw [← first, ← second, operand, names]
  have bytes : d.bytes = Bus.peek bus address ::
      e.operand.operandBytes (address + 2) e.instruction.mnemonic := by
    rw [← operand, ← mnemonic]
    exact bytes_disassemble bus r address
  have bytes' : e.bytes = Bus.peek other address ::
      e.operand.operandBytes (address + 2) e.instruction.mnemonic :=
    bytes_disassemble other r' address
  refine ⟨mnemonic, mode, official, ?_, fun documented => ?_⟩
  · rw [bytes, bytes', List.tail_cons, List.tail_cons]
  · have documented' : j.official = true := official.symm.trans documented
    have opcode : Bus.peek bus address = Bus.peek other address :=
      Instruction.opcode_inj_of_official documented documented' mnemonic mode
    rw [bytes, bytes', opcode]

/-- A branch at the top of memory to a place before it, and an undocumented operation that has
several opcodes. -/
theorem instruction_of_text_wrapped :
    let branch : View := fun a => if a = 0xFFFE then 0xD0 else if a = 0xFFFF then 0x80 else 0
    let branch' : View := fun a => if a = 0xFFFE then 0xD0 else if a = 0xFFFF then 0x80 else 0xEA
    let nothing : View := fun a => if a = 0xFFFE then 0x14 else if a = 0xFFFF then 0xF5 else 0
    let nothing' : View := fun a => if a = 0xFFFE then 0x74 else if a = 0xFFFF then 0xF5 else 0
    let r : Registers := { Registers.powerOn with x := 0x10 }
    let r' : Registers := ⟨0x80, 0x10, 0x22, 0xFD, 0xC000, Status.ofByte 0xFF⟩
    (disassemble branch r 0xFFFE).text = "BNE $FF80" ∧
      (disassemble branch' r' 0xFFFE).text = "BNE $FF80" ∧
      (disassemble branch r 0xFFFE).bytes = (disassemble branch' r' 0xFFFE).bytes ∧
      (disassemble nothing r 0xFFFE).text = "*NOP $F5,X @ 05 = 00" ∧
      (disassemble nothing' r' 0xFFFE).text = "*NOP $F5,X @ 05 = 00" ∧
      (disassemble nothing r 0xFFFE).bytes.tail = (disassemble nothing' r' 0xFFFE).bytes.tail ∧
      (disassemble nothing r 0xFFFE).bytes ≠ (disassemble nothing' r' 0xFFFE).bytes := by
  intro branch branch' nothing nothing' r r'
  have goes : (disassemble branch r 0xFFFE).text = "BNE $FF80" := by decide +kernel
  have goes' : (disassemble branch' r' 0xFFFE).text = "BNE $FF80" := by decide +kernel
  have rests : (disassemble nothing r 0xFFFE).text = "*NOP $F5,X @ 05 = 00" := by decide +kernel
  have rests' : (disassemble nothing' r' 0xFFFE).text = "*NOP $F5,X @ 05 = 00" := by
    decide +kernel
  obtain ⟨-, -, -, -, bytes⟩ :=
    instruction_of_text branch branch' r r' 0xFFFE (goes.trans goes'.symm)
  obtain ⟨-, -, -, tail, -⟩ :=
    instruction_of_text nothing nothing' r r' 0xFFFE (rests.trans rests'.symm)
  exact ⟨goes, goes', bytes (by decide +kernel), rests, rests', tail, by decide +kernel⟩

end Disassembly
end NesMachine
