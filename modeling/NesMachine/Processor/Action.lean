import NesMachine.Processor.Instruction
import NesMachine.Processor.Arithmetic

/-!
# Actions

What each operation does with its operand. The operations fall into a few kinds by their
use of the bus; within a kind they differ only in what they do to the registers.
-/
namespace NesMachine

inductive Action where
  /-- Reads the operand and works it into the registers. -/
  | consume (update : Registers → UInt8 → Registers)
  /-- Writes a byte to the operand. -/
  | store (value : Registers → UInt8)
  /-- Writes a byte anded with the high byte of the unindexed address plus one; when the
  index left the page, what is written replaces the high byte of the address. -/
  | storeMasked (index value : Registers → UInt8) (update : Registers → Registers)
  /-- Reads the operand, writes it back unchanged and writes the changed byte, which is
  then worked into the registers. -/
  | modify (change : Registers → UInt8 → UInt8 × Registers)
      (update : Registers → UInt8 → Registers)
  /-- Changes registers only. -/
  | internal (update : Registers → Registers)
  /-- Pushes a byte. -/
  | push (value : Registers → UInt8)
  /-- Pulls a byte and works it into the registers. -/
  | pull (update : Registers → UInt8 → Registers)
  /-- Goes on at the operand if a condition holds. -/
  | branch (taken : Registers → Bool)
  /-- Goes on at the operand. -/
  | jump
  /-- Goes on at the operand and leaves the way back on the stack. -/
  | call
  /-- Goes back to where a call was made. -/
  | returnFromCall
  /-- Restores the flags and goes back to where an interrupt was taken. -/
  | returnFromInterrupt
  /-- Takes an interrupt. -/
  | interrupt
  /-- Does nothing; an operand in memory is still looked at, which costs its cycle. -/
  | nothing
  /-- Stops the processor until it is reset. -/
  | jam

/-- What an operation does: loads and stores, arithmetic and comparisons, operations on a
byte in place, transfers between registers, flags, the stack, control, and at last the
undocumented combinations of these. -/
def Mnemonic.action : Mnemonic → Action
  | .lda => .consume .loadA
  | .ldx => .consume .loadX
  | .ldy => .consume .loadY
  | .sta => .store fun r => r.a
  | .stx => .store fun r => r.x
  | .sty => .store fun r => r.y
  | .adc => .consume .add
  | .sbc => .consume .subtract
  | .and => .consume .and
  | .ora => .consume .or
  | .eor => .consume .exclusiveOr
  | .cmp => .consume fun r => r.compare r.a
  | .cpx => .consume fun r => r.compare r.x
  | .cpy => .consume fun r => r.compare r.y
  | .bit => .consume .testBits
  | .asl => .modify Registers.shiftLeft fun r _ => r
  | .lsr => .modify Registers.shiftRight fun r _ => r
  | .rol => .modify Registers.rotateLeft fun r _ => r
  | .ror => .modify Registers.rotateRight fun r _ => r
  | .inc => .modify Registers.increment fun r _ => r
  | .dec => .modify Registers.decrement fun r _ => r
  | .inx => .internal fun r => r.loadX (r.x + 1)
  | .iny => .internal fun r => r.loadY (r.y + 1)
  | .dex => .internal fun r => r.loadX (r.x - 1)
  | .dey => .internal fun r => r.loadY (r.y - 1)
  | .tax => .internal fun r => r.loadX r.a
  | .tay => .internal fun r => r.loadY r.a
  | .txa => .internal fun r => r.loadA r.x
  | .tya => .internal fun r => r.loadA r.y
  | .tsx => .internal fun r => r.loadX r.s
  | .txs => .internal fun r => { r with s := r.x }
  | .clc => .internal fun r => { r with p := { r.p with carry := false } }
  | .sec => .internal fun r => { r with p := { r.p with carry := true } }
  | .cli => .internal fun r => { r with p := { r.p with interruptDisable := false } }
  | .sei => .internal fun r => { r with p := { r.p with interruptDisable := true } }
  | .clv => .internal fun r => { r with p := { r.p with overflow := false } }
  | .cld => .internal fun r => { r with p := { r.p with decimal := false } }
  | .sed => .internal fun r => { r with p := { r.p with decimal := true } }
  | .pha => .push fun r => r.a
  | .php => .push fun r => r.p.pushed true
  | .pla => .pull .loadA
  | .plp => .pull fun r value => { r with p := .ofByte value }
  | .jmp => .jump
  | .jsr => .call
  | .rts => .returnFromCall
  | .rti => .returnFromInterrupt
  | .brk => .interrupt
  | .bcc => .branch fun r => !r.p.carry
  | .bcs => .branch fun r => r.p.carry
  | .bne => .branch fun r => !r.p.zero
  | .beq => .branch fun r => r.p.zero
  | .bpl => .branch fun r => !r.p.negative
  | .bmi => .branch fun r => r.p.negative
  | .bvc => .branch fun r => !r.p.overflow
  | .bvs => .branch fun r => r.p.overflow
  | .nop => .nothing
  | .lax => .consume .loadAX
  | .sax => .store fun r => r.a &&& r.x
  | .slo => .modify Registers.shiftLeft .or
  | .rla => .modify Registers.rotateLeft .and
  | .sre => .modify Registers.shiftRight .exclusiveOr
  | .rra => .modify Registers.rotateRight .add
  | .dcp => .modify Registers.decrement fun r => r.compare r.a
  | .isb => .modify Registers.increment .subtract
  | .anc => .consume .andCarry
  | .alr => .consume .andShiftRight
  | .arr => .consume .andRotateRight
  | .axs => .consume .subtractShared
  | .xaa => .consume .unstableTransfer
  | .lxa => .consume .unstableLoad
  | .las => .consume .loadStack
  | .ahx => .storeMasked (fun r => r.y) (fun r => r.a &&& r.x) id
  | .shx => .storeMasked (fun r => r.y) (fun r => r.x) id
  | .shy => .storeMasked (fun r => r.x) (fun r => r.y) id
  | .tas => .storeMasked (fun r => r.y) (fun r => r.a &&& r.x) fun r =>
      { r with s := r.a &&& r.x }
  | .kil => .jam

end NesMachine
