import NesMachine.Proofs.Processor.OpcodeRegularity
import NesMachine.Proofs.Processor.StepEffects

/-!
# The bus traffic of a step

Which calls one instruction makes on the bus, in order: its opcode, its operand bytes, the
pointer of an indirect mode, and then what the operation itself reads and writes. The last
part is written down below for each group of operations, without reference to how they are
carried out; devices on a bus see these calls and no others.
-/
namespace NesMachine

namespace Mnemonic

/-- Whether a reading operation uses the byte in its operand. -/
def usesValue : Mnemonic → Bool
  | .lda | .ldx | .ldy | .adc | .sbc | .and | .ora | .eor | .cmp | .cpx | .cpy | .bit
  | .lax | .anc | .alr | .arr | .axs | .xaa | .lxa | .las => true
  | _ => false

/-- The byte that a storing operation takes from the registers. -/
def storedByte (r : Registers) : Mnemonic → UInt8
  | .sta => r.a
  | .stx | .shx => r.x
  | .sty | .shy => r.y
  | .sax | .ahx | .tas => r.a &&& r.x
  | _ => 0

/-- What an operation in place makes of a byte. -/
def changedByte (carry : Bool) (old : UInt8) : Mnemonic → UInt8
  | .asl | .slo => old <<< 1
  | .lsr | .sre => old >>> 1
  | .rol | .rla => old <<< 1 ||| (if carry then 0x01 else 0)
  | .ror | .rra => old >>> 1 ||| (if carry then 0x80 else 0)
  | .inc | .isb => old + 1
  | .dec | .dcp => old - 1
  | _ => old

/-- The write of a storing operation to an address. The four that mask their byte with the
address may be led to another page by it. -/
def storeRequest (r : Registers) (address : UInt16) (mnemonic : Mnemonic) : Request :=
  let value := mnemonic.storedByte r
  match mnemonic with
  | .ahx | .shx | .tas => .write (maskedAddress address r.y value) (maskedByte address r.y value)
  | .shy => .write (maskedAddress address r.x value) (maskedByte address r.x value)
  | _ => .write address value

end Mnemonic

namespace Instruction

/-- The calls of an operation after its operand has been found. -/
def dataRequests (view : View) (r : Registers) (i : Instruction) : List Request :=
  let address := (i.mode.operand view r (r.pc + 1)).address
  match i.mnemonic with
  | .pha => [.write (stackSlot r.s) r.a]
  | .php => [.write (stackSlot r.s) (r.p.pushed true)]
  | .pla | .plp => [.read (stackSlot (r.s + 1))]
  | .jsr => [.write (stackSlot r.s) (highByte (r.pc + 2)),
      .write (stackSlot (r.s - 1)) (lowByte (r.pc + 2))]
  | .rts => [.read (stackSlot (r.s + 1)), .read (stackSlot (r.s + 2))]
  | .rti => [.read (stackSlot (r.s + 1)), .read (stackSlot (r.s + 2)),
      .read (stackSlot (r.s + 3))]
  | .brk => [.write (stackSlot r.s) (highByte (r.pc + 2)),
      .write (stackSlot (r.s - 1)) (lowByte (r.pc + 2)),
      .write (stackSlot (r.s - 2)) (r.p.pushed true), .read 0xFFFE, .read 0xFFFF]
  | mnemonic => match mnemonic.access with
    | .read => if mnemonic.usesValue then [.read address] else []
    | .write => [mnemonic.storeRequest r address]
    | .modify =>
      if i.mode = .accumulator then []
      else [.read address, .write address (view address),
        .write address (mnemonic.changedByte r.p.carry (view address))]

def requests (view : View) (r : Registers) (i : Instruction) : List Request :=
  .read r.pc :: (i.mode.operandRequests (r.pc + 1) ++ i.mode.pointerRequests view r (r.pc + 1) ++
    i.dataRequests view r)

end Instruction

/-! The calls of the actions on operands that they suit. -/

section Actions

variable {view : View} {r r' : Registers} {start : UInt16} {mode : Mode}

theorem requests_consume {update : Registers → UInt8 → Registers}
    (suits : (Action.consume update).suits mode = true) :
    ((Action.consume update).effect view r' (mode.operand view r start)).requests =
      [.read (mode.operand view r start).address] := by
  obtain ⟨a, memory⟩ := Mode.operand_of_holdsByte view r start suits
  rw [memory]
  rfl

theorem requests_store {value : Registers → UInt8}
    (suits : (Action.store value).suits mode = true) :
    ((Action.store value).effect view r' (mode.operand view r start)).requests =
      [.write (mode.operand view r start).address (value r')] := by
  obtain ⟨a, memory⟩ := Mode.operand_of_inMemory view r start suits
  rw [memory]
  rfl

theorem requests_modify {change : Registers → UInt8 → UInt8 × Registers}
    {update : Registers → UInt8 → Registers}
    (suits : (Action.modify change update).suits mode = true) :
    ((Action.modify change update).effect view r' (mode.operand view r start)).requests =
      let address := (mode.operand view r start).address
      if mode = .accumulator then []
      else [.read address, .write address (view address),
        .write address (change r' (view address)).1] := by
  rcases Bool.or_eq_true_iff.mp suits with inMemory | accumulator
  · obtain ⟨a, memory⟩ := Mode.operand_of_inMemory view r start inMemory
    have other : mode ≠ .accumulator := by
      rintro rfl
      cases inMemory
    rw [memory]
    simp [Action.effect, Operand.byte, Operand.address, other]
  · rw [beq_iff_eq.mp accumulator]
    rfl

theorem requests_branch (taken : Registers → Bool) (operand : Operand) :
    ((Action.branch taken).effect view r operand).requests = [] := by
  by_cases h : taken r
  · simp [Action.effect, h]
  · simp [Action.effect, h]

end Actions

/-- What an operation asks of the bus is what is written down for it. -/
theorem requests_action (view : View) (r : Registers) (i : Instruction)
    (suits : i.mnemonic.action.suits i.mode = true) :
    (i.mnemonic.action.effect view { r with pc := i.mode.afterOperand (r.pc + 1) }
      (i.mode.operand view r (r.pc + 1))).requests = i.dataRequests view r := by
  obtain ⟨mnemonic, mode, cycles, official⟩ := i
  cases mnemonic with
  | lda | ldx | ldy | adc | sbc | and | ora | eor | cmp | cpx | cpy | bit
  | lax | anc | alr | arr | axs | xaa | lxa | las => exact requests_consume suits
  | sta | stx | sty | sax => exact requests_store suits
  | asl | lsr | rol | ror | inc | dec | slo | rla | sre | rra | dcp | isb =>
    exact requests_modify suits
  | bcc | bcs | bne | beq | bpl | bmi | bvc | bvs => exact requests_branch _ _
  | jsr =>
    have absolute : mode = .absolute := beq_iff_eq.mp suits
    have last : r.pc + 1 + 2 - 1 = r.pc + 2 := by grind
    subst absolute
    simp [Action.effect, Mnemonic.action, Instruction.dataRequests, Mode.afterOperand, Mode.size,
      last]
  | brk =>
    have implied : mode = .implied := beq_iff_eq.mp suits
    subst implied
    simp [Action.effect, Mnemonic.action, Instruction.dataRequests, Mode.afterOperand, Mode.size,
      add_one_add_one, interruptEffect, irqVector, nextInPage]
    decide
  | _ => rfl

theorem requests_stepEffect (view : View) (r : Registers) :
    (stepEffect view r).requests = (Instruction.decode (view r.pc)).requests view r := by
  have suits := Instruction.suits_decode (view r.pc)
  rw [stepEffect, Instruction.effect, Effect.requests_andThen, Effect.requests_andThen,
    requests_action view r _ suits]
  rfl

namespace Machine

variable {β : Type} [Bus β]

/-- The machine with a record of its bus that starts now. -/
def recorded (m : Machine β) : Machine (Recorded β) where
  cpu := m.cpu
  bus := .start m.bus

def calls (m : Machine (Recorded β)) : List Request :=
  m.bus.traffic.toList.map Transfer.request

theorem traffic_undergo_recorded (m : Machine β) (e : Effect) :
    (m.recorded.undergo e).bus.traffic.toList = Bus.transfers m.bus e.requests := by
  rw [bus_undergo, Recorded.traffic_serveAll]
  rfl

theorem calls_undergo_recorded (m : Machine β) (e : Effect) :
    (m.recorded.undergo e).calls = e.requests := by
  rw [calls, traffic_undergo_recorded, Bus.map_request_transfers]

theorem traffic_step_recorded [PlainBus β] (m : Machine β) (running : m.cpu.halted = false) :
    m.recorded.step.bus.traffic.toList =
      Bus.transfers m.bus (stepEffect (Bus.peek m.bus) m.cpu.registers).requests := by
  rw [bus_step m.recorded running, Recorded.traffic_serveAll]
  rfl

theorem calls_step_recorded (m : Machine FlatMemory) (running : m.cpu.halted = false) :
    m.recorded.step.calls = (stepEffect m.bus.get m.cpu.registers).requests := by
  rw [calls, traffic_step_recorded m running, Bus.map_request_transfers]
  rfl

/-- An instruction makes the calls that are written down for it, and each of its reads gets
the byte that memory holds at that moment. Requests that are taken push three bytes and
read their vector, and a reset only reads its vector. -/
theorem calls_of_step (m : Machine FlatMemory) (running : m.cpu.halted = false) :
    let r := m.cpu.registers
    m.recorded.step.calls =
        (Instruction.decode (m.bus.get r.pc)).requests m.bus.get r ∧
      m.recorded.step.bus.traffic.toList = Bus.transfers m.bus m.recorded.step.calls ∧
      (r.p.interruptDisable = false → m.recorded.irq.2.calls =
        [.write (stackSlot r.s) (highByte r.pc), .write (stackSlot (r.s - 1)) (lowByte r.pc),
          .write (stackSlot (r.s - 2)) (r.p.pushed false), .read 0xFFFE, .read 0xFFFF]) ∧
      m.recorded.nmi.calls =
        [.write (stackSlot r.s) (highByte r.pc), .write (stackSlot (r.s - 1)) (lowByte r.pc),
          .write (stackSlot (r.s - 2)) (r.p.pushed false), .read 0xFFFA, .read 0xFFFB] ∧
      m.recorded.reset.calls = [.read 0xFFFC, .read 0xFFFD] := by
  intro r
  have traffic := traffic_step_recorded m running
  have calls : m.recorded.step.calls =
      (Instruction.decode (m.bus.get r.pc)).requests m.bus.get r := by
    rw [Machine.calls, traffic, Bus.map_request_transfers, requests_stepEffect]
    rfl
  refine ⟨calls, ?_, ?_, ?_, ?_⟩
  · rw [traffic, calls, requests_stepEffect]
    rfl
  · intro enabled
    rw [irq_eq m.recorded running enabled, calls_undergo_recorded]
    rfl
  · rw [nmi_eq m.recorded running, calls_undergo_recorded]
    rfl
  · rw [reset_eq]
    exact calls_undergo_recorded m _

/-- An operand byte and a pointer that both wrap around: `ISB ($FE,X)` at the top of memory. -/
theorem calls_of_step_wrapped :
    let memory := ((((FlatMemory.zero.set 0xFFFF 0xE3).set 0x0000 0xFE).set 0x00FF 0x10).set
      0xFE10 0x7F)
    let m : Machine FlatMemory :=
      ⟨⟨⟨0x80, 0x01, 0, 0xFD, 0xFFFF, Status.ofByte 0⟩, 7, false, none⟩, memory⟩
    m.cpu.halted = false ∧ m.cpu.registers.p.interruptDisable = false ∧
      m.recorded.step.calls = [.read 0xFFFF, .read 0x0000, .read 0x00FF, .read 0x0000,
        .read 0xFE10, .write 0xFE10 0x7F, .write 0xFE10 0x80] ∧
      m.recorded.irq.2.calls = [.write 0x01FD 0xFF, .write 0x01FC 0xFF, .write 0x01FB 0x20,
        .read 0xFFFE, .read 0xFFFF] := by
  intro memory m
  have opcode : memory.get 0xFFFF = 0xE3 := by simp [memory, FlatMemory.get_set]
  have operand : memory.get 0x0000 = 0xFE := by simp [memory, FlatMemory.get_set]
  have pointer : memory.get 0x00FF = 0x10 := by simp [memory, FlatMemory.get_set]
  have value : memory.get 0xFE10 = 0x7F := by simp [memory, FlatMemory.get_set]
  have instruction :
      Instruction.decode (memory.get 0xFFFF) = .undocumented .isb .indexedIndirect 8 := by
    rw [opcode]
    rfl
  have target : Bus.peekZeroPageWord memory.get 0xFF = 0xFE10 := by
    simp [Bus.peekZeroPageWord, zeroPageAddress, operand, pointer]
    decide
  -- The bytes looked up above are all that is needed of the memory.
  clear_value memory
  obtain ⟨step, -, irq, -, -⟩ := calls_of_step m rfl
  refine ⟨rfl, rfl, ?_, (irq rfl).trans (by simp only [m]; decide)⟩
  rw [step]
  simp only [m, instruction, Instruction.requests]
  simp [Instruction.dataRequests, operand, value, target, Mode.operandRequests,
    Mode.pointerRequests, Mode.operand, Instruction.undocumented, zeroPageAddress,
    Operand.address, Mnemonic.access, Mnemonic.changedByte]

end Machine
end NesMachine
