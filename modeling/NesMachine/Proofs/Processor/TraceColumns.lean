import NesMachine.Proofs.Processor.DisassemblyText
import NesMachine.Proofs.Text.Columns

/-!
# Trace lines in columns

However long its operand is, an instruction fits into the cell that a trace line has for it, and
so do its bytes. So each field of a line has columns of its own, and nothing that the line is
made of is lost in it.
-/
namespace NesMachine

open Text

theorem Mnemonic.endsVisibly_name (mnemonic : Mnemonic) : EndsVisibly mnemonic.name := by
  cases mnemonic <;> exact ⟨_, rfl, by decide⟩

namespace OperandView

theorem endsVisibly_render {view : OperandView} (some : view ≠ .none) :
    EndsVisibly view.render := by
  cases view with
  | none => exact absurd rfl some
  | accumulator => exact ⟨'A', rfl, by decide⟩
  | target word | indirect _ word => exact (endsVisibly_hexWord word).append _
  | immediate byte | zeroPage _ byte | zeroPageIndexed _ _ _ byte | absolute _ byte
  | absoluteIndexed _ _ _ byte | indexedIndirect _ _ _ byte | indirectIndexed _ _ _ byte =>
    exact (endsVisibly_hexByte byte).append _

end OperandView

namespace Disassembly

theorem endsVisibly_body (d : Disassembly) : EndsVisibly d.body := by
  rw [body_eq]
  by_cases none : d.operand = .none
  · rw [none, OperandView.afterName, String.append_empty]
    exact d.instruction.mnemonic.endsVisibly_name
  · rw [OperandView.afterName_of_ne none]
    exact ((OperandView.endsVisibly_render none).append _).append _

/-- With the longest operand there is still a column free. -/
theorem length_body_le (d : Disassembly) : d.body.length ≤ 30 := by
  have operand : d.operand.afterName.length ≤ 27 := by
    by_cases none : d.operand = .none
    · rw [none]
      decide
    · have blank : " ".length = 1 := rfl
      have width := d.operand.width_le
      rw [OperandView.afterName_of_ne none, String.length_append, OperandView.length_render]
      omega
  rw [body_eq, String.length_append, Mnemonic.length_name]
  omega

/-- The text of an instruction without the star that it may begin with. -/
def unmarked (d : Disassembly) : String :=
  String.ofList <| match d.text.toList with
    | '*' :: rest => rest
    | characters => characters

theorem unmarked_eq_body (d : Disassembly) : d.unmarked = d.body := by
  obtain ⟨letter, rest, body, other⟩ := d.exists_letter
  by_cases official : d.instruction.official = true
  · rw [unmarked, text, if_pos official, body]
    split
    · next star => exact absurd (List.cons.inj star).1 other
    · rw [← body, String.ofList_toList]
  · rw [unmarked, text, if_neg official, String.toList_append]
    exact String.ofList_toList

section Bytes

variable {β γ : Type} [Bus β] [Bus γ]

theorem exists_hexBytes (bus : β) (r : Registers) (address : UInt16) :
    ∃ opcode rest, (disassemble bus r address).bytes = opcode :: rest ∧
      (disassemble bus r address).hexBytes = hexRow (opcode :: rest) := by
  obtain ⟨some, -⟩ := length_bytes_disassemble bus r address
  obtain ⟨opcode, rest, bytes⟩ := List.exists_cons_of_length_pos some
  exact ⟨opcode, rest, bytes, congrArg hexRow bytes⟩

theorem length_hexBytes_le (bus : β) (r : Registers) (address : UInt16) :
    (disassemble bus r address).hexBytes.length ≤ 8 := by
  obtain ⟨opcode, rest, bytes, row⟩ := exists_hexBytes bus r address
  have few := (length_bytes_disassemble bus r address).2
  rw [bytes, List.length_cons] at few
  rw [row, length_hexRow]
  omega

theorem padRight_hexBytes_inj {bus : β} {other : γ} {r r' : Registers} {a b : UInt16} :
    padRight 8 (disassemble bus r a).hexBytes = padRight 8 (disassemble other r' b).hexBytes ↔
      (disassemble bus r a).bytes = (disassemble other r' b).bytes := by
  obtain ⟨opcode, rest, bytes, row⟩ := exists_hexBytes bus r a
  obtain ⟨opcode', rest', bytes', row'⟩ := exists_hexBytes other r' b
  rw [row, row', bytes, bytes',
    (endsVisibly_hexRow opcode rest).padRight_inj (endsVisibly_hexRow opcode' rest'), hexRow_inj]

end Bytes

end Disassembly

theorem Status.toByte_inj {p q : Status} : p.toByte = q.toByte ↔ p = q :=
  (Function.LeftInverse.injective Status.ofByte_toByte).eq_iff

namespace TraceLine

/-- The cells of a line up to the number of cycles, with what stands between them. -/
def cells (line : TraceLine) : List String :=
  [hexWord line.disassembly.address, "  ", padRight 8 line.disassembly.hexBytes, " ",
    line.marker, padRight 31 line.disassembly.body, " ", "A:", hexByte line.registers.a,
    " X:", hexByte line.registers.x, " Y:", hexByte line.registers.y,
    " P:", hexByte line.registers.p.toByte, " SP:", hexByte line.registers.s, " ", "CYC:"]

def widths : List Nat := [4, 2, 8, 1, 1, 31, 1, 2, 2, 3, 2, 3, 2, 3, 2, 4, 2, 1, 4]

theorem render_eq (line : TraceLine) :
    line.render = String.join (line.cells ++ [line.cycles.repr]) := by
  have first : " A:" = " " ++ "A:" := rfl
  have last : " CYC:" = " " ++ "CYC:" := rfl
  unfold render
  rewrite [first, last]
  simp only [cells, List.cons_append, List.nil_append, String.join_cons, String.join_nil,
    String.append_empty, String.append_assoc]

variable {line other : TraceLine}

theorem map_length_cells (short : line.disassembly.hexBytes.length ≤ 8) :
    line.cells.map String.length = widths := by
  have body : line.disassembly.body.length ≤ 31 := by
    have := line.disassembly.length_body_le
    omega
  have marker : line.marker.length = 1 := by
    unfold marker
    split <;> rfl
  simp only [cells, List.map_cons, List.map_nil, length_hexWord, length_hexByte, marker,
    length_padRight short, length_padRight body]
  rfl

/-- Each cell of a line is in the columns that the widths before it leave for it. -/
theorem columns_render (short : line.disassembly.hexBytes.length ≤ 8) {k first count : Nat}
    {cell : String} (starts : (widths.take k).sum = first) (wide : widths[k]? = some count)
    (here : line.cells[k]? = some cell) : columns line.render first count = cell := by
  obtain ⟨inside, -⟩ := List.getElem?_eq_some_iff.mp here
  have among : (line.cells ++ [line.cycles.repr])[k]? = some cell := by
    rw [List.getElem?_append_left inside, here]
  have column := columns_join among
  have starts' : (((line.cells ++ [line.cycles.repr]).map String.length).take k).sum = first := by
    rw [List.map_append, List.take_append_of_le_length (by rw [List.length_map]; omega),
      map_length_cells short, starts]
  have wide' : cell.length = count := by
    rw [← map_length_cells short, List.getElem?_map, here] at wide
    exact Option.some.inj wide
  rwa [← render_eq, starts', wide'] at column

theorem exists_lead (short : line.disassembly.hexBytes.length ≤ 8) :
    ∃ lead, lead.length = 74 ∧ line.render = lead ++ "CYC:" ++ line.cycles.repr := by
  refine ⟨String.join (line.cells.take 18), ?_, ?_⟩
  · rw [String.length_join, List.map_take, map_length_cells short]
    rfl
  · rw [render_eq, ← List.take_append_drop 18 line.cells, String.join_append, String.join_append]
    simp [cells]

theorem cells_of_render (short : line.disassembly.hexBytes.length ≤ 8)
    (short' : other.disassembly.hexBytes.length ≤ 8) (same : line.render = other.render) :
    line.cells = other.cells ∧ line.cycles = other.cycles := by
  rw [render_eq, render_eq] at same
  obtain ⟨cells, cycles⟩ :=
    (join_concat_inj ((map_length_cells short).trans (map_length_cells short').symm)).mp same
  exact ⟨cells, repr_inj.mp cycles⟩

theorem marker_inj : line.marker = other.marker ↔
    line.disassembly.instruction.official = other.disassembly.instruction.official := by
  rw [marker, marker]
  cases line.disassembly.instruction.official <;>
    cases other.disassembly.instruction.official <;> decide

variable {β γ : Type} [Bus β] [Bus γ]

/-- Two equal lines were written of the same instruction, registers and number of cycles. -/
theorem eq_of_render_capture {bus : β} {other : γ} {r r' : Registers} {cycles cycles' : Nat}
    (same : (capture bus r cycles).render = (capture other r' cycles').render) :
    r = r' ∧ (disassemble bus r r.pc).bytes = (disassemble other r' r'.pc).bytes ∧
      (disassemble bus r r.pc).text = (disassemble other r' r'.pc).text ∧ cycles = cycles' := by
  have short : (capture bus r cycles).disassembly.hexBytes.length ≤ 8 :=
    Disassembly.length_hexBytes_le ..
  have short' : (capture other r' cycles').disassembly.hexBytes.length ≤ 8 :=
    Disassembly.length_hexBytes_le ..
  obtain ⟨cells, cycles⟩ := cells_of_render short short' same
  simp only [TraceLine.cells, List.cons.injEq, hexWord_inj, hexByte_inj, marker_inj,
    Status.toByte_inj, true_and, and_true] at cells
  obtain ⟨pc, bytes, official, body, a, x, y, p, s⟩ := cells
  have body :=
    ((Disassembly.endsVisibly_body _).padRight_inj (Disassembly.endsVisibly_body _)).mp body
  have text := Disassembly.text_inj.mpr ⟨official, Disassembly.body_inj.mp body⟩
  have registers : r = r' := by
    cases r
    cases r'
    rw [Registers.mk.injEq]
    exact ⟨a, x, y, s, pc, p⟩
  exact ⟨registers, Disassembly.padRight_hexBytes_inj.mp bytes, text, cycles⟩

/-- In a line for the instruction at the program counter each field has its columns, with room
for the longest, and the number of cycles is all that stands behind the last of them; two equal
lines were written of the same instruction, registers and number of cycles. -/
theorem columns_render_capture (bus : β) (other : γ) (r r' : Registers) (cycles cycles' : Nat) :
    let text := (capture bus r cycles).render
    let d := disassemble bus r r.pc
    let e := disassemble other r' r'.pc
    columns text 0 4 = hexWord r.pc ∧
      (d.hexBytes.length ≤ 8 ∧ columns text 6 8 = padRight 8 d.hexBytes) ∧
      columns text 15 1 =
        (if (Instruction.decode (Bus.peek bus r.pc)).official then " " else "*") ∧
      (d.unmarked.length ≤ 31 ∧ columns text 16 31 = padRight 31 d.unmarked) ∧
      columns text 48 2 = "A:" ∧
      columns text 74 4 = "CYC:" ∧
      (∃ lead, lead.length = 74 ∧ text = lead ++ "CYC:" ++ cycles.repr) ∧
      (text = (capture other r' cycles').render →
        r.pc = r'.pc ∧ d.bytes = e.bytes ∧ d.text = e.text ∧ r.a = r'.a ∧ r.x = r'.x ∧
          r.y = r'.y ∧ r.s = r'.s ∧ r.p = r'.p ∧ cycles = cycles') := by
  intro text d e
  have short : (capture bus r cycles).disassembly.hexBytes.length ≤ 8 :=
    Disassembly.length_hexBytes_le ..
  have fits : d.unmarked.length ≤ 31 := by
    have := d.length_body_le
    rw [Disassembly.unmarked_eq_body]
    omega
  refine ⟨columns_render (k := 0) short rfl rfl rfl,
    ⟨short, columns_render (k := 2) short rfl rfl rfl⟩,
    columns_render (k := 4) short rfl rfl rfl, ⟨fits, ?_⟩,
    columns_render (k := 7) short rfl rfl rfl, columns_render (k := 18) short rfl rfl rfl,
    exists_lead short, fun same => ?_⟩
  · rw [Disassembly.unmarked_eq_body]
    exact columns_render (k := 5) short rfl rfl rfl
  · obtain ⟨registers, bytes, text, cycles⟩ := eq_of_render_capture same
    exact ⟨congrArg _ registers, bytes, text, congrArg _ registers, congrArg _ registers,
      congrArg _ registers, congrArg _ registers, congrArg _ registers, cycles⟩

/-- The longest operand, of an undocumented instruction across the top of memory, after as many
cycles as can be counted; a byte that the line does not show is another one. -/
theorem columns_render_capture_longest :
    let memory : View := fun a =>
      if a = 0xFFFF then 0xB3 else if a = 0x0000 then 0x80 else if a = 0x0081 then 0x02 else 0
    let memory' : View := fun a => if a = 0x1234 then 0xEA else memory a
    let r : Registers := { Registers.powerOn with y := 0x10, pc := 0xFFFF }
    let text := (capture memory r (2 ^ 64 - 1)).render
    text = "FFFF  B3 80    *LAX ($80),Y = 0200 @ 0210 = 00  A:00 X:00 Y:10 P:34 SP:00" ++
        " CYC:18446744073709551615" ∧
      text = (capture memory' r (2 ^ 64 - 1)).render ∧
      columns text 6 8 = "B3 80   " ∧
      (disassemble memory r 0xFFFF).bytes = (disassemble memory' r 0xFFFF).bytes := by
  intro memory memory' r text
  have shown : text = "FFFF  B3 80    *LAX ($80),Y = 0200 @ 0210 = 00  A:00 X:00 Y:10 P:34 SP:00" ++
      " CYC:18446744073709551615" := by decide +kernel
  have same : text = (capture memory' r (2 ^ 64 - 1)).render := by
    rw [shown]
    decide +kernel
  obtain ⟨-, ⟨-, row⟩, -, -, -, -, -, equal⟩ :=
    columns_render_capture memory memory' r r (2 ^ 64 - 1) (2 ^ 64 - 1)
  have eight : padRight 8 (disassemble memory r 0xFFFF).hexBytes = "B3 80   " := by decide +kernel
  exact ⟨shown, same, row.trans eight, (equal same).2.1⟩

end TraceLine
end NesMachine
