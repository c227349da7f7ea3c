import NesMachine.Proofs.Processor.OpcodeRegularity
import NesMachine.Proofs.Processor.StepEffects
import NesMachine.Value

/-!
# The parts of the registers that instructions own

An instruction may change the registers and flags that it is there for, and it changes no
others. Each arithmetic operation has the parts that it can change written beside it; an
instruction changes what its operations change, and the stack pointer if it pushes or pulls.
-/
namespace NesMachine

/-- The registers and flags that belong to some instructions. The program counter is not
among them, since every instruction moves it. -/
inductive Part where
  | a | x | y | s
  | negative | overflow | decimal | interruptDisable | zero | carry
  deriving DecidableEq, Repr

namespace Part

def all : List Part :=
  [.a, .x, .y, .s, .negative, .overflow, .decimal, .interruptDisable, .zero, .carry]

theorem mem_all (part : Part) : part ∈ all := by
  cases part <;> decide

def value (r : Registers) : Part → Value
  | .a => .byte r.a
  | .x => .byte r.x
  | .y => .byte r.y
  | .s => .byte r.s
  | .negative => .bool r.p.negative
  | .overflow => .bool r.p.overflow
  | .decimal => .bool r.p.decimal
  | .interruptDisable => .bool r.p.interruptDisable
  | .zero => .bool r.p.zero
  | .carry => .bool r.p.carry

/-- The operations that leave the signs of a result alone: stores, the stack pointer, the
stack, control, and the flags. -/
def signless : List Mnemonic :=
  [.sta, .stx, .sty, .sax, .ahx, .shx, .shy, .tas, .txs, .pha, .php, .jmp, .jsr, .rts, .brk, .kil,
    .bcc, .bcs, .bne, .beq, .bpl, .bmi, .bvc, .bvs, .nop,
    .clc, .sec, .cli, .sei, .clv, .cld, .sed]

/-- Whether an instruction is there to change a part. -/
def ownedBy (mnemonic : Mnemonic) (mode : Mode) : Part → Bool
  | .a => mnemonic ∈ [.lda, .adc, .sbc, .and, .ora, .eor, .pla, .txa, .tya, .lax, .slo, .rla, .sre,
      .rra, .isb, .anc, .alr, .arr, .xaa, .lxa, .las] ∨
      mode = .accumulator ∧ mnemonic ∈ [.asl, .lsr, .rol, .ror]
  | .x => mnemonic ∈ [.ldx, .tax, .tsx, .inx, .dex, .lax, .lxa, .las, .axs]
  | .y => mnemonic ∈ [.ldy, .tay, .iny, .dey]
  | .s => mnemonic ∈ [.txs, .pha, .php, .pla, .plp, .jsr, .rts, .rti, .brk, .las, .tas]
  | .carry => mnemonic ∈ [.adc, .sbc, .cmp, .cpx, .cpy, .asl, .lsr, .rol, .ror, .clc, .sec, .plp,
      .rti, .slo, .rla, .sre, .rra, .dcp, .isb, .anc, .alr, .arr, .axs]
  | .overflow => mnemonic ∈ [.adc, .sbc, .bit, .clv, .plp, .rti, .rra, .isb, .arr]
  | .decimal => mnemonic ∈ [.cld, .sed, .plp, .rti]
  | .interruptDisable => mnemonic ∈ [.cli, .sei, .brk, .plp, .rti]
  | .negative | .zero => mnemonic ∉ signless

end Part

namespace Registers

/-- Whether registers agree in all parts but some. -/
def AgreeBut (parts : List Part) (r r' : Registers) : Prop :=
  ∀ part, part ∉ parts → part.value r' = part.value r

section

variable {parts more : List Part} {r r' r'' : Registers}

theorem AgreeBut.refl : AgreeBut parts r r := fun _ _ => rfl

theorem AgreeBut.trans (first : AgreeBut parts r r') (second : AgreeBut parts r' r'') :
    AgreeBut parts r r'' := fun part outside => (second part outside).trans (first part outside)

theorem AgreeBut.mono (agree : AgreeBut parts r r') (among : parts ⊆ more) : AgreeBut more r r' :=
  fun part outside => agree part fun inside => outside (among inside)

theorem agreeBut_pc (pc : UInt16) : AgreeBut parts r { r with pc } := by
  intro part _
  cases part <;> rfl

/-- Registers that agree but for some parts, told part by part. -/
theorem agreeBut_iff : AgreeBut parts r r' ↔
    (Part.a ∉ parts → r'.a = r.a) ∧ (Part.x ∉ parts → r'.x = r.x) ∧
      (Part.y ∉ parts → r'.y = r.y) ∧ (Part.s ∉ parts → r'.s = r.s) ∧
      (Part.negative ∉ parts → r'.p.negative = r.p.negative) ∧
      (Part.overflow ∉ parts → r'.p.overflow = r.p.overflow) ∧
      (Part.decimal ∉ parts → r'.p.decimal = r.p.decimal) ∧
      (Part.interruptDisable ∉ parts → r'.p.interruptDisable = r.p.interruptDisable) ∧
      (Part.zero ∉ parts → r'.p.zero = r.p.zero) ∧
      (Part.carry ∉ parts → r'.p.carry = r.p.carry) := by
  constructor
  · intro agree
    exact ⟨fun h => Value.byte.inj (agree .a h), fun h => Value.byte.inj (agree .x h),
      fun h => Value.byte.inj (agree .y h), fun h => Value.byte.inj (agree .s h),
      fun h => Value.bool.inj (agree .negative h), fun h => Value.bool.inj (agree .overflow h),
      fun h => Value.bool.inj (agree .decimal h),
      fun h => Value.bool.inj (agree .interruptDisable h),
      fun h => Value.bool.inj (agree .zero h), fun h => Value.bool.inj (agree .carry h)⟩
  · rintro ⟨a, x, y, s, negative, overflow, decimal, interruptDisable, zero, carry⟩ part outside
    cases part with
    | a => exact congrArg Value.byte (a outside)
    | x => exact congrArg Value.byte (x outside)
    | y => exact congrArg Value.byte (y outside)
    | s => exact congrArg Value.byte (s outside)
    | negative => exact congrArg Value.bool (negative outside)
    | overflow => exact congrArg Value.bool (overflow outside)
    | decimal => exact congrArg Value.bool (decimal outside)
    | interruptDisable => exact congrArg Value.bool (interruptDisable outside)
    | zero => exact congrArg Value.bool (zero outside)
    | carry => exact congrArg Value.bool (carry outside)

end

/-! What each operation can change. -/

variable (r : Registers) (value : UInt8)

theorem loadA_agreeBut : AgreeBut [.a, .negative, .zero] r (r.loadA value) := by
  simp [agreeBut_iff, loadA, Status.withResult]

theorem loadX_agreeBut : AgreeBut [.x, .negative, .zero] r (r.loadX value) := by
  simp [agreeBut_iff, loadX, Status.withResult]

theorem loadY_agreeBut : AgreeBut [.y, .negative, .zero] r (r.loadY value) := by
  simp [agreeBut_iff, loadY, Status.withResult]

theorem loadAX_agreeBut : AgreeBut [.a, .x, .negative, .zero] r (r.loadAX value) := by
  simp [agreeBut_iff, loadAX, loadA, Status.withResult]

theorem add_agreeBut : AgreeBut [.a, .negative, .overflow, .zero, .carry] r (r.add value) := by
  simp [agreeBut_iff, add, loadA, Status.withResult]

theorem subtract_agreeBut :
    AgreeBut [.a, .negative, .overflow, .zero, .carry] r (r.subtract value) := by
  simp [agreeBut_iff, subtract, loadA, Status.withResult]

theorem compare_agreeBut (register : UInt8) :
    AgreeBut [.negative, .zero, .carry] r (r.compare register value) := by
  simp [agreeBut_iff, compare, Status.withResult]

theorem testBits_agreeBut : AgreeBut [.negative, .overflow, .zero] r (r.testBits value) := by
  simp [agreeBut_iff, testBits]

/-- All shifts and rotations set the flags in one way. -/
theorem shifted_agreeBut (carry : Bool) :
    AgreeBut [.negative, .zero, .carry] r (r.shifted carry value).2 := by
  simp [agreeBut_iff, shifted, Status.withResult]

theorem increment_agreeBut : AgreeBut [.negative, .zero] r (r.increment value).2 := by
  simp [agreeBut_iff, increment, Status.withResult]

theorem decrement_agreeBut : AgreeBut [.negative, .zero] r (r.decrement value).2 := by
  simp [agreeBut_iff, decrement, Status.withResult]

theorem andCarry_agreeBut : AgreeBut [.a, .negative, .zero, .carry] r (r.andCarry value) := by
  simp [agreeBut_iff, andCarry, and, loadA, Status.withResult]

theorem andShiftRight_agreeBut :
    AgreeBut [.a, .negative, .zero, .carry] r (r.andShiftRight value) := by
  simp [agreeBut_iff, andShiftRight, shiftRight, shifted, and, loadA, Status.withResult]

theorem andRotateRight_agreeBut :
    AgreeBut [.a, .negative, .overflow, .zero, .carry] r (r.andRotateRight value) := by
  simp [agreeBut_iff, andRotateRight, loadA, Status.withResult]

theorem subtractShared_agreeBut :
    AgreeBut [.x, .negative, .zero, .carry] r (r.subtractShared value) := by
  simp [agreeBut_iff, subtractShared, loadX, Status.withResult]

theorem loadStack_agreeBut : AgreeBut [.a, .x, .s, .negative, .zero] r (r.loadStack value) := by
  simp [agreeBut_iff, loadStack, loadAX, loadA, Status.withResult]

theorem a_agreeBut : AgreeBut [.a] r { r with a := value } := by
  simp [agreeBut_iff]

theorem s_agreeBut : AgreeBut [.s] r { r with s := value } := by
  simp [agreeBut_iff]

theorem p_agreeBut (p : Status) :
    AgreeBut [.negative, .overflow, .decimal, .interruptDisable, .zero, .carry] r { r with p } := by
  simp [agreeBut_iff]

theorem carry_agreeBut (carry : Bool) : AgreeBut [.carry] r { r with p := { r.p with carry } } := by
  simp [agreeBut_iff]

theorem overflow_agreeBut (overflow : Bool) :
    AgreeBut [.overflow] r { r with p := { r.p with overflow } } := by
  simp [agreeBut_iff]

theorem decimal_agreeBut (decimal : Bool) :
    AgreeBut [.decimal] r { r with p := { r.p with decimal } } := by
  simp [agreeBut_iff]

theorem interruptDisable_agreeBut (interruptDisable : Bool) :
    AgreeBut [.interruptDisable] r { r with p := { r.p with interruptDisable } } := by
  simp [agreeBut_iff]

end Registers

open Registers

/-- What an instruction can change, told by its mnemonic. -/
def Mnemonic.touches (mode : Mode) : Mnemonic → List Part
  | .lda | .and | .ora | .eor | .txa | .tya | .xaa => [.a, .negative, .zero]
  | .ldx | .tax | .tsx | .inx | .dex => [.x, .negative, .zero]
  | .ldy | .tay | .iny | .dey => [.y, .negative, .zero]
  | .lax | .lxa => [.a, .x, .negative, .zero]
  | .las => [.a, .x, .s, .negative, .zero]
  | .adc | .sbc | .rra | .isb | .arr => [.a, .negative, .overflow, .zero, .carry]
  | .slo | .rla | .sre | .anc | .alr => [.a, .negative, .zero, .carry]
  | .axs => [.x, .negative, .zero, .carry]
  | .cmp | .cpx | .cpy | .dcp => [.negative, .zero, .carry]
  | .asl | .lsr | .rol | .ror =>
    if mode = .accumulator then [.a, .negative, .zero, .carry] else [.negative, .zero, .carry]
  | .inc | .dec => [.negative, .zero]
  | .bit => [.negative, .overflow, .zero]
  | .clc | .sec => [.carry]
  | .cli | .sei => [.interruptDisable]
  | .clv => [.overflow]
  | .cld | .sed => [.decimal]
  | .pla => [.a, .s, .negative, .zero]
  | .plp | .rti => [.s, .negative, .overflow, .decimal, .interruptDisable, .zero, .carry]
  | .brk => [.s, .interruptDisable]
  | .txs | .tas | .pha | .php | .jsr | .rts => [.s]
  | _ => []

/-- What an instruction can change is what it is there to change. -/
theorem Instruction.ownedBy_decode_iff (opcode : UInt8) (part : Part) :
    part.ownedBy (decode opcode).mnemonic (decode opcode).mode = true ↔
      part ∈ (decode opcode).mnemonic.touches (decode opcode).mode :=
  decode_forall (P := fun i => ∀ part ∈ Part.all,
    part.ownedBy i.mnemonic i.mode = true ↔ part ∈ i.mnemonic.touches i.mode)
    (by decide +kernel) opcode part part.mem_all

namespace Action

/-- Whether an action on operands of a mode changes no parts but some. -/
def Touches (mode : Mode) (parts : List Part) : Action → Prop
  | .consume update => ∀ r value, AgreeBut parts r (update r value)
  | .storeMasked _ _ update | .internal update => ∀ r, AgreeBut parts r (update r)
  | .modify change update =>
    (∀ r value, AgreeBut parts r (change r value).2) ∧
      (∀ r value, AgreeBut parts r (update r value)) ∧ (mode = .accumulator → .a ∈ parts)
  | .pull update => .s ∈ parts ∧ ∀ r value, AgreeBut parts r (update r value)
  | .push _ | .call | .returnFromCall => .s ∈ parts
  | .returnFromInterrupt => .s ∈ parts ∧ ∀ r p, AgreeBut parts r { r with p }
  | .interrupt => .s ∈ parts ∧ .interruptDisable ∈ parts
  | .store _ | .branch _ | .jump | .nothing | .jam => True

variable {mode : Mode} {parts : List Part} {view : View} {r r' : Registers} {start : UInt16}

/-- The registers that an action leaves differ in the parts that it touches only. -/
theorem agreeBut_effect {action : Action} (suits : action.suits mode = true)
    (touches : action.Touches mode parts) :
    AgreeBut parts r (action.effect view r (mode.operand view r' start)).registers := by
  have moved (h : Part.s ∈ parts) (s : UInt8) (pc : UInt16) : AgreeBut parts r { r with s, pc } :=
    ((s_agreeBut r s).mono (by simpa using h)).trans (agreeBut_pc pc)
  cases action with
  | consume update => exact touches r _
  | store value =>
    obtain ⟨a, memory⟩ := Mode.operand_of_inMemory view r' start suits
    rw [memory]
    exact .refl
  | storeMasked index value update | internal update => exact touches r
  | modify change update =>
    obtain ⟨changed, updated, inA⟩ := touches
    rcases Bool.or_eq_true_iff.mp suits with inMemory | accumulator
    · obtain ⟨a, memory⟩ := Mode.operand_of_inMemory view r' start inMemory
      rw [memory]
      exact (changed r _).trans (updated _ _)
    · obtain rfl := beq_iff_eq.mp accumulator
      have stored : AgreeBut parts (change r r.a).2
          { (change r r.a).2 with a := (change r r.a).1 } :=
        (a_agreeBut _ _).mono (by simpa using inA rfl)
      exact ((changed r r.a).trans stored).trans (updated _ _)
  | push value => exact moved touches _ r.pc
  | pull update => exact (moved touches.1 _ r.pc).trans (touches.2 _ _)
  | branch taken =>
    rw [effect]
    split
    · exact agreeBut_pc _
    · exact .refl
  | jump => exact agreeBut_pc _
  | call | returnFromCall => exact moved touches _ _
  | returnFromInterrupt =>
    have popped := moved touches.1 (r.s + 3)
      (wordOf (view (stackSlot (r.s + 2))) (view (stackSlot (r.s + 3))))
    exact popped.trans (touches.2 _ (.ofByte (view (stackSlot (r.s + 1)))))
  | interrupt =>
    refine (moved touches.1 (r.s - 3) (Bus.peekWordInPage view irqVector)).trans ?_
    exact (interruptDisable_agreeBut _ true).mono (by simpa using touches.2)
  | nothing | jam => exact .refl

end Action

/-- Every mnemonic stands for an action that changes no more than is written beside it. -/
theorem Mnemonic.touches_action (mnemonic : Mnemonic) (mode : Mode)
    (shift : mode = .accumulator → mnemonic ∈ [.asl, .lsr, .rol, .ror]) :
    mnemonic.action.Touches mode (mnemonic.touches mode) := by
  cases mnemonic with
  | lda | and | ora | eor | xaa => exact fun r _ => loadA_agreeBut r _
  | txa | tya => exact fun r => loadA_agreeBut r _
  | ldx => exact fun r _ => loadX_agreeBut r _
  | tax | tsx | inx | dex => exact fun r => loadX_agreeBut r _
  | ldy => exact fun r _ => loadY_agreeBut r _
  | tay | iny | dey => exact fun r => loadY_agreeBut r _
  | lax | lxa => exact fun r _ => loadAX_agreeBut r _
  | las => exact loadStack_agreeBut
  | adc => exact add_agreeBut
  | sbc => exact subtract_agreeBut
  | arr => exact andRotateRight_agreeBut
  | anc => exact andCarry_agreeBut
  | alr => exact andShiftRight_agreeBut
  | axs => exact subtractShared_agreeBut
  | cmp | cpx | cpy => exact fun r value => compare_agreeBut r value _
  | bit => exact testBits_agreeBut
  | asl | lsr | rol | ror =>
    have flags : [Part.negative, .zero, .carry] ⊆ touches mode .asl := by
      by_cases accumulator : mode = .accumulator <;> simp [touches, accumulator]
    refine ⟨fun r _ => (shifted_agreeBut r _ _).mono flags, fun _ _ => .refl, fun accumulator => ?_⟩
    rw [accumulator]
    decide
  | inc => exact ⟨increment_agreeBut, fun _ _ => .refl, fun h => absurd (shift h) (by decide)⟩
  | dec => exact ⟨decrement_agreeBut, fun _ _ => .refl, fun h => absurd (shift h) (by decide)⟩
  | slo | rla | sre =>
    exact ⟨fun r _ => (shifted_agreeBut r _ _).mono (by simp [touches]),
      fun r _ => (loadA_agreeBut r _).mono (by simp [touches]), fun _ => by simp [touches]⟩
  | rra =>
    exact ⟨fun r _ => (shifted_agreeBut r _ _).mono (by simp [touches]), add_agreeBut,
      fun _ => by simp [touches]⟩
  | isb =>
    exact ⟨fun r value => (increment_agreeBut r value).mono (by simp [touches]), subtract_agreeBut,
      fun _ => by simp [touches]⟩
  | dcp =>
    exact ⟨fun r value => (decrement_agreeBut r value).mono (by simp [touches]),
      fun r value => compare_agreeBut r value _, fun h => absurd (shift h) (by decide)⟩
  | clc | sec => exact fun r => carry_agreeBut r _
  | cli | sei => exact fun r => interruptDisable_agreeBut r _
  | clv => exact fun r => overflow_agreeBut r _
  | cld | sed => exact fun r => decimal_agreeBut r _
  | pla => exact ⟨by simp [touches], fun r _ => (loadA_agreeBut r _).mono (by simp [touches])⟩
  | plp => exact ⟨by simp [touches], fun r _ => (p_agreeBut r _).mono (by simp [touches])⟩
  | rti => exact ⟨by simp [touches], fun r p => (p_agreeBut r p).mono (by simp [touches])⟩
  | brk => exact ⟨by simp [touches], by simp [touches]⟩
  | txs | tas => exact fun r => s_agreeBut r _
  | pha | php | jsr | rts => exact List.mem_singleton_self _
  | ahx | shx | shy => exact fun _ => .refl
  | _ => trivial

namespace Instruction

/-- Only shifts and rotations work on the accumulator in place. -/
theorem shift_of_accumulator (opcode : UInt8) : (decode opcode).mode = .accumulator →
    (decode opcode).mnemonic ∈ [.asl, .lsr, .rol, .ror] :=
  decode_forall (P := fun i => i.mode = .accumulator → i.mnemonic ∈ [.asl, .lsr, .rol, .ror])
    (by decide +kernel) opcode

theorem agreeBut_effect_decode (view : View) (r : Registers) (opcode : UInt8) :
    AgreeBut ((decode opcode).mnemonic.touches (decode opcode).mode) r
      ((decode opcode).effect view r).registers := by
  have touches := Mnemonic.touches_action _ _ (shift_of_accumulator opcode)
  exact (agreeBut_pc _).trans (Action.agreeBut_effect (suits_decode opcode) touches)

end Instruction

namespace Machine

/-- A step leaves every register and every flag alone that its instruction is not there to
change. -/
theorem value_of_step (m : Machine FlatMemory) (running : m.cpu.halted = false) (part : Part) :
    let i := Instruction.decode (m.bus.get m.cpu.registers.pc)
    part.ownedBy i.mnemonic i.mode = false →
      part.value m.step.cpu.registers = part.value m.cpu.registers := by
  intro i foreign
  have outside : part ∉ i.mnemonic.touches i.mode := by
    rw [← Instruction.ownedBy_decode_iff, foreign]
    decide
  rw [registers_step m running]
  exact Instruction.agreeBut_effect_decode m.bus.get m.cpu.registers _ part outside

/-- A subtraction from A and X reads A and the flags, and leaves A, overflow and decimal as
they were. -/
theorem value_of_step_axs :
    let m : Machine FlatMemory := ⟨⟨⟨0x5F, 0x33, 0x02, 0xFD, 0x8000, Status.ofByte 0x48⟩, 7, false,
      none⟩, FlatMemory.zero.set 0x8000 0xCB⟩
    m.cpu.halted = false ∧
      ∀ part ∈ [Part.a, .y, .s, .overflow, .decimal, .interruptDisable],
        part.ownedBy .axs .immediate = false ∧
          part.value m.step.cpu.registers = part.value m.cpu.registers := by
  intro m
  have opcode : m.bus.get m.cpu.registers.pc = 0xCB := by
    simp [m, FlatMemory.get_set]
  refine ⟨rfl, fun part listed => ?_⟩
  have foreign : part.ownedBy .axs .immediate = false := by
    revert listed part
    decide
  refine ⟨foreign, value_of_step m rfl part ?_⟩
  rw [opcode]
  exact foreign

end Machine
end NesMachine
