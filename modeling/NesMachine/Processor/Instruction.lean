/-!
# Instructions

An opcode byte stands for a mnemonic in an addressing mode. The mode fixes the length of
the instruction; the mnemonic fixes how the operand is touched, which decides whether an
indexed mode pays for a carry into the high byte of the address.
-/
namespace NesMachine

/-- The operations of the processor, the documented ones first. -/
inductive Mnemonic where
  | adc | and | asl | bcc | bcs | beq | bit | bmi | bne | bpl | brk | bvc | bvs | clc
  | cld | cli | clv | cmp | cpx | cpy | dec | dex | dey | eor | inc | inx | iny | jmp
  | jsr | lda | ldx | ldy | lsr | nop | ora | pha | php | pla | plp | rol | ror | rti
  | rts | sbc | sec | sed | sei | sta | stx | sty | tax | tay | tsx | txa | txs | tya
  | ahx | alr | anc | arr | axs | dcp | isb | kil | las | lax | lxa | rla | rra | sax
  | shx | shy | slo | sre | tas | xaa
  deriving DecidableEq, Repr

inductive Access where
  /-- An indexed address costs a cycle more only when the index leaves the page. -/
  | read
  /-- An indexed address always costs a cycle more. -/
  | write
  /-- An indexed address always costs a cycle more; the byte is read, written back
  unchanged, and written again. -/
  | modify
  deriving DecidableEq, Repr

inductive Mode where
  | implied | accumulator | immediate
  | zeroPage | zeroPageX | zeroPageY
  | absolute | absoluteX | absoluteY
  | indirect | indexedIndirect | indirectIndexed
  | relative
  deriving DecidableEq, Repr

/-- The length of an instruction in bytes, its opcode included. -/
def Mode.size : Mode → Nat
  | .implied | .accumulator => 1
  | .immediate | .zeroPage | .zeroPageX | .zeroPageY
  | .indexedIndirect | .indirectIndexed | .relative => 2
  | .absolute | .absoluteX | .absoluteY | .indirect => 3

namespace Mnemonic

/-- The three letters that name the operation in a listing. -/
def name : Mnemonic → String
  | .adc => "ADC" | .and => "AND" | .asl => "ASL" | .bcc => "BCC" | .bcs => "BCS"
  | .beq => "BEQ" | .bit => "BIT" | .bmi => "BMI" | .bne => "BNE" | .bpl => "BPL"
  | .brk => "BRK" | .bvc => "BVC" | .bvs => "BVS" | .clc => "CLC" | .cld => "CLD"
  | .cli => "CLI" | .clv => "CLV" | .cmp => "CMP" | .cpx => "CPX" | .cpy => "CPY"
  | .dec => "DEC" | .dex => "DEX" | .dey => "DEY" | .eor => "EOR" | .inc => "INC"
  | .inx => "INX" | .iny => "INY" | .jmp => "JMP" | .jsr => "JSR" | .lda => "LDA"
  | .ldx => "LDX" | .ldy => "LDY" | .lsr => "LSR" | .nop => "NOP" | .ora => "ORA"
  | .pha => "PHA" | .php => "PHP" | .pla => "PLA" | .plp => "PLP" | .rol => "ROL"
  | .ror => "ROR" | .rti => "RTI" | .rts => "RTS" | .sbc => "SBC" | .sec => "SEC"
  | .sed => "SED" | .sei => "SEI" | .sta => "STA" | .stx => "STX" | .sty => "STY"
  | .tax => "TAX" | .tay => "TAY" | .tsx => "TSX" | .txa => "TXA" | .txs => "TXS"
  | .tya => "TYA" | .ahx => "AHX" | .alr => "ALR" | .anc => "ANC" | .arr => "ARR"
  | .axs => "AXS" | .dcp => "DCP" | .isb => "ISB" | .kil => "KIL" | .las => "LAS"
  | .lax => "LAX" | .lxa => "LXA" | .rla => "RLA" | .rra => "RRA" | .sax => "SAX"
  | .shx => "SHX" | .shy => "SHY" | .slo => "SLO" | .sre => "SRE" | .tas => "TAS"
  | .xaa => "XAA"

def access : Mnemonic → Access
  | .sta | .stx | .sty | .sax | .ahx | .shx | .shy | .tas => .write
  | .asl | .lsr | .rol | .ror | .inc | .dec
  | .slo | .rla | .sre | .rra | .dcp | .isb => .modify
  | _ => .read

def isBranch : Mnemonic → Bool
  | .bcc | .bcs | .beq | .bmi | .bne | .bpl | .bvc | .bvs => true
  | _ => false

end Mnemonic

structure Instruction where
  mnemonic : Mnemonic
  mode : Mode
  /-- The cycles it takes when no page is crossed and no branch is taken. -/
  cycles : Nat
  /-- Whether the opcode is documented. -/
  official : Bool
  deriving DecidableEq, Repr

end NesMachine
