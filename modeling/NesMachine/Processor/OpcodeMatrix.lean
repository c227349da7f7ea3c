import NesMachine.Processor.Instruction

/-!
# The opcode matrix

All 256 opcode bytes, in sixteen rows by their high digit. Execution and disassembly both
decode through this one matrix.
-/
namespace NesMachine

def Instruction.documented (mnemonic : Mnemonic) (mode : Mode) (cycles : Nat) : Instruction :=
  ⟨mnemonic, mode, cycles, true⟩

def Instruction.undocumented (mnemonic : Mnemonic) (mode : Mode) (cycles : Nat) :
    Instruction :=
  ⟨mnemonic, mode, cycles, false⟩

open Instruction in
/-- The instruction of each opcode, by the high and then the low digit of the byte. -/
def opcodeMatrix : Vector (Vector Instruction 16) 16 := #v[
  #v[documented .brk .implied 7, documented .ora .indexedIndirect 6, undocumented .kil .implied 2,
    undocumented .slo .indexedIndirect 8, undocumented .nop .zeroPage 3,
    documented .ora .zeroPage 3, documented .asl .zeroPage 5, undocumented .slo .zeroPage 5,
    documented .php .implied 3, documented .ora .immediate 2, documented .asl .accumulator 2,
    undocumented .anc .immediate 2, undocumented .nop .absolute 4, documented .ora .absolute 4,
    documented .asl .absolute 6, undocumented .slo .absolute 6],
  #v[documented .bpl .relative 2, documented .ora .indirectIndexed 5, undocumented .kil .implied 2,
    undocumented .slo .indirectIndexed 8, undocumented .nop .zeroPageX 4,
    documented .ora .zeroPageX 4, documented .asl .zeroPageX 6, undocumented .slo .zeroPageX 6,
    documented .clc .implied 2, documented .ora .absoluteY 4, undocumented .nop .implied 2,
    undocumented .slo .absoluteY 7, undocumented .nop .absoluteX 4, documented .ora .absoluteX 4,
    documented .asl .absoluteX 7, undocumented .slo .absoluteX 7],
  #v[documented .jsr .absolute 6, documented .and .indexedIndirect 6, undocumented .kil .implied 2,
    undocumented .rla .indexedIndirect 8, documented .bit .zeroPage 3,
    documented .and .zeroPage 3, documented .rol .zeroPage 5, undocumented .rla .zeroPage 5,
    documented .plp .implied 4, documented .and .immediate 2, documented .rol .accumulator 2,
    undocumented .anc .immediate 2, documented .bit .absolute 4, documented .and .absolute 4,
    documented .rol .absolute 6, undocumented .rla .absolute 6],
  #v[documented .bmi .relative 2, documented .and .indirectIndexed 5, undocumented .kil .implied 2,
    undocumented .rla .indirectIndexed 8, undocumented .nop .zeroPageX 4,
    documented .and .zeroPageX 4, documented .rol .zeroPageX 6, undocumented .rla .zeroPageX 6,
    documented .sec .implied 2, documented .and .absoluteY 4, undocumented .nop .implied 2,
    undocumented .rla .absoluteY 7, undocumented .nop .absoluteX 4, documented .and .absoluteX 4,
    documented .rol .absoluteX 7, undocumented .rla .absoluteX 7],
  #v[documented .rti .implied 6, documented .eor .indexedIndirect 6, undocumented .kil .implied 2,
    undocumented .sre .indexedIndirect 8, undocumented .nop .zeroPage 3,
    documented .eor .zeroPage 3, documented .lsr .zeroPage 5, undocumented .sre .zeroPage 5,
    documented .pha .implied 3, documented .eor .immediate 2, documented .lsr .accumulator 2,
    undocumented .alr .immediate 2, documented .jmp .absolute 3, documented .eor .absolute 4,
    documented .lsr .absolute 6, undocumented .sre .absolute 6],
  #v[documented .bvc .relative 2, documented .eor .indirectIndexed 5, undocumented .kil .implied 2,
    undocumented .sre .indirectIndexed 8, undocumented .nop .zeroPageX 4,
    documented .eor .zeroPageX 4, documented .lsr .zeroPageX 6, undocumented .sre .zeroPageX 6,
    documented .cli .implied 2, documented .eor .absoluteY 4, undocumented .nop .implied 2,
    undocumented .sre .absoluteY 7, undocumented .nop .absoluteX 4, documented .eor .absoluteX 4,
    documented .lsr .absoluteX 7, undocumented .sre .absoluteX 7],
  #v[documented .rts .implied 6, documented .adc .indexedIndirect 6, undocumented .kil .implied 2,
    undocumented .rra .indexedIndirect 8, undocumented .nop .zeroPage 3,
    documented .adc .zeroPage 3, documented .ror .zeroPage 5, undocumented .rra .zeroPage 5,
    documented .pla .implied 4, documented .adc .immediate 2, documented .ror .accumulator 2,
    undocumented .arr .immediate 2, documented .jmp .indirect 5, documented .adc .absolute 4,
    documented .ror .absolute 6, undocumented .rra .absolute 6],
  #v[documented .bvs .relative 2, documented .adc .indirectIndexed 5, undocumented .kil .implied 2,
    undocumented .rra .indirectIndexed 8, undocumented .nop .zeroPageX 4,
    documented .adc .zeroPageX 4, documented .ror .zeroPageX 6, undocumented .rra .zeroPageX 6,
    documented .sei .implied 2, documented .adc .absoluteY 4, undocumented .nop .implied 2,
    undocumented .rra .absoluteY 7, undocumented .nop .absoluteX 4, documented .adc .absoluteX 4,
    documented .ror .absoluteX 7, undocumented .rra .absoluteX 7],
  #v[undocumented .nop .immediate 2, documented .sta .indexedIndirect 6,
    undocumented .nop .immediate 2, undocumented .sax .indexedIndirect 6,
    documented .sty .zeroPage 3, documented .sta .zeroPage 3, documented .stx .zeroPage 3,
    undocumented .sax .zeroPage 3, documented .dey .implied 2, undocumented .nop .immediate 2,
    documented .txa .implied 2, undocumented .xaa .immediate 2, documented .sty .absolute 4,
    documented .sta .absolute 4, documented .stx .absolute 4, undocumented .sax .absolute 4],
  #v[documented .bcc .relative 2, documented .sta .indirectIndexed 6, undocumented .kil .implied 2,
    undocumented .ahx .indirectIndexed 6, documented .sty .zeroPageX 4,
    documented .sta .zeroPageX 4, documented .stx .zeroPageY 4, undocumented .sax .zeroPageY 4,
    documented .tya .implied 2, documented .sta .absoluteY 5, documented .txs .implied 2,
    undocumented .tas .absoluteY 5, undocumented .shy .absoluteX 5, documented .sta .absoluteX 5,
    undocumented .shx .absoluteY 5, undocumented .ahx .absoluteY 5],
  #v[documented .ldy .immediate 2, documented .lda .indexedIndirect 6,
    documented .ldx .immediate 2, undocumented .lax .indexedIndirect 6,
    documented .ldy .zeroPage 3, documented .lda .zeroPage 3, documented .ldx .zeroPage 3,
    undocumented .lax .zeroPage 3, documented .tay .implied 2, documented .lda .immediate 2,
    documented .tax .implied 2, undocumented .lxa .immediate 2, documented .ldy .absolute 4,
    documented .lda .absolute 4, documented .ldx .absolute 4, undocumented .lax .absolute 4],
  #v[documented .bcs .relative 2, documented .lda .indirectIndexed 5, undocumented .kil .implied 2,
    undocumented .lax .indirectIndexed 5, documented .ldy .zeroPageX 4,
    documented .lda .zeroPageX 4, documented .ldx .zeroPageY 4, undocumented .lax .zeroPageY 4,
    documented .clv .implied 2, documented .lda .absoluteY 4, documented .tsx .implied 2,
    undocumented .las .absoluteY 4, documented .ldy .absoluteX 4, documented .lda .absoluteX 4,
    documented .ldx .absoluteY 4, undocumented .lax .absoluteY 4],
  #v[documented .cpy .immediate 2, documented .cmp .indexedIndirect 6,
    undocumented .nop .immediate 2, undocumented .dcp .indexedIndirect 8,
    documented .cpy .zeroPage 3, documented .cmp .zeroPage 3, documented .dec .zeroPage 5,
    undocumented .dcp .zeroPage 5, documented .iny .implied 2, documented .cmp .immediate 2,
    documented .dex .implied 2, undocumented .axs .immediate 2, documented .cpy .absolute 4,
    documented .cmp .absolute 4, documented .dec .absolute 6, undocumented .dcp .absolute 6],
  #v[documented .bne .relative 2, documented .cmp .indirectIndexed 5, undocumented .kil .implied 2,
    undocumented .dcp .indirectIndexed 8, undocumented .nop .zeroPageX 4,
    documented .cmp .zeroPageX 4, documented .dec .zeroPageX 6, undocumented .dcp .zeroPageX 6,
    documented .cld .implied 2, documented .cmp .absoluteY 4, undocumented .nop .implied 2,
    undocumented .dcp .absoluteY 7, undocumented .nop .absoluteX 4, documented .cmp .absoluteX 4,
    documented .dec .absoluteX 7, undocumented .dcp .absoluteX 7],
  #v[documented .cpx .immediate 2, documented .sbc .indexedIndirect 6,
    undocumented .nop .immediate 2, undocumented .isb .indexedIndirect 8,
    documented .cpx .zeroPage 3, documented .sbc .zeroPage 3, documented .inc .zeroPage 5,
    undocumented .isb .zeroPage 5, documented .inx .implied 2, documented .sbc .immediate 2,
    documented .nop .implied 2, undocumented .sbc .immediate 2, documented .cpx .absolute 4,
    documented .sbc .absolute 4, documented .inc .absolute 6, undocumented .isb .absolute 6],
  #v[documented .beq .relative 2, documented .sbc .indirectIndexed 5, undocumented .kil .implied 2,
    undocumented .isb .indirectIndexed 8, undocumented .nop .zeroPageX 4,
    documented .sbc .zeroPageX 4, documented .inc .zeroPageX 6, undocumented .isb .zeroPageX 6,
    documented .sed .implied 2, documented .sbc .absoluteY 4, undocumented .nop .implied 2,
    undocumented .isb .absoluteY 7, undocumented .nop .absoluteX 4, documented .sbc .absoluteX 4,
    documented .inc .absoluteX 7, undocumented .isb .absoluteX 7]]

def Instruction.decode (opcode : UInt8) : Instruction :=
  have := opcode.toNat_lt
  opcodeMatrix[opcode.toNat / 16][opcode.toNat % 16]

end NesMachine
