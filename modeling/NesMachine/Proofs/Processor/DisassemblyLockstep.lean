import NesMachine.Proofs.Processor.StepTraffic

/-!
# Disassembly in lockstep with execution

The disassembler works out addresses by peeks, the processor by reads, each with its own
code. They agree: the bytes and the length of an instruction, the effective address and
the byte found there, and the places where jumps and branches go on. What is shown of an
operand is told here from the bytes of the instruction and the address that the processor
finds, mark by mark, so that no other address fits the text.
-/
namespace NesMachine

namespace Bus

variable {β : Type} [Bus β]

@[simp] theorem length_peekMany (bus : β) (address : UInt16) (count : Nat) :
    (peekMany bus address count).length = count := by
  induction count generalizing address with
  | zero => rfl
  | succ count ih => simp [peekMany, ih]

/-- Bytes peeked in a row are those at consecutive addresses, wrapping around. -/
theorem peekMany_eq_map (bus : β) (address : UInt16) (count : Nat) :
    peekMany bus address count =
      (List.range count).map fun k => peek bus (address + UInt16.ofNat k) := by
  induction count generalizing address with
  | zero => rfl
  | succ count ih =>
    rw [peekMany, ih, List.range_succ_eq_map, List.map_cons, List.map_map]
    congr 1
    · simp
    · apply List.map_congr_left
      intro k _
      simp only [Function.comp_apply, Nat.succ_eq_add_one, UInt16.ofNat_add]
      congr 1
      grind

end Bus

namespace Mode

def inPageZero : Mode → Bool
  | .zeroPage | .zeroPageX | .zeroPageY => true
  | _ => false

/-- The digits of an effective address: two in page zero, else four. -/
def addressText (address : UInt16) (mode : Mode) : String :=
  if mode.inPageZero then Text.hexByte (lowByte address) else Text.hexWord address

open Text in
/-- The operand as it stands in the instruction, where the effective address is another; a
pointer in page zero is followed by where it is, or by the word that it holds. -/
def written (view : View) (r : Registers) (start : UInt16) : Mode → String
  | .zeroPageX => "$" ++ hexByte (view start) ++ ",X"
  | .zeroPageY => "$" ++ hexByte (view start) ++ ",Y"
  | .absoluteX => "$" ++ hexWord (wordOf (view start) (view (start + 1))) ++ ",X"
  | .absoluteY => "$" ++ hexWord (wordOf (view start) (view (start + 1))) ++ ",Y"
  | .indirect => "($" ++ hexWord (wordOf (view start) (view (start + 1))) ++ ")"
  | .indexedIndirect =>
    "($" ++ hexByte (view start) ++ ",X) @ " ++ hexByte (view start + r.x)
  | .indirectIndexed =>
    "($" ++ hexByte (view start) ++ "),Y = " ++ hexWord (Bus.peekZeroPageWord view (view start))
  | _ => ""

/-- What stands directly before the digits of the effective address. -/
def mark : Mode → String
  | .zeroPage | .absolute | .relative => "$"
  | .zeroPageX | .zeroPageY | .absoluteX | .absoluteY | .indirectIndexed => " @ "
  | .indirect | .indexedIndirect => " = "
  | .implied | .accumulator | .immediate => ""

end Mode

/-- The name of the operation, with a star before an undocumented one. -/
def Instruction.label (i : Instruction) : String :=
  (if i.official then "" else "*") ++ i.mnemonic.name

theorem lowByte_zeroPageAddress (b : UInt8) : lowByte (zeroPageAddress b) = b := by
  simp [lowByte, zeroPageAddress]

theorem highByte_zeroPageAddress (b : UInt8) : highByte (zeroPageAddress b) = 0 := by
  apply UInt8.toNat_inj.mp
  have := b.toNat_lt
  simp only [toNat_highByte, zeroPageAddress, UInt8.toNat_toUInt16, UInt8.reduceToNat]
  omega

theorem Mode.operand_eq_memory (view : View) (r : Registers) (start : UInt16) {mode : Mode}
    (h : mode.inMemory = true) :
    mode.operand view r start = .memory (mode.operand view r start).address := by
  obtain ⟨a, memory⟩ := operand_of_inMemory view r start h
  rw [memory]
  rfl

/-- Operands in page zero are shown with two digits, which lose nothing. -/
theorem Mode.highByte_address (view : View) (r : Registers) (start : UInt16) {mode : Mode}
    (h : mode.inPageZero = true) : highByte (mode.operand view r start).address = 0 := by
  cases mode with
  | zeroPage | zeroPageX | zeroPageY => exact highByte_zeroPageAddress _
  | _ => cases h

/-- What goes on elsewhere names the place in one of three ways. -/
theorem Instruction.mode_of_goes (i : Instruction)
    (suits : i.mnemonic.action.suits i.mode = true)
    (goes : i.mnemonic = .jmp ∨ i.mnemonic = .jsr ∨ i.mnemonic.isBranch = true) :
    i.mode = .absolute ∧ (i.mnemonic = .jmp ∨ i.mnemonic = .jsr) ∨
      i.mode = .indirect ∨ i.mode = .relative := by
  rcases goes with jmp | jsr | branch
  · rw [jmp] at suits
    rcases Bool.or_eq_true_iff.mp suits with absolute | indirect
    · exact .inl ⟨beq_iff_eq.mp absolute, .inl jmp⟩
    · exact .inr (.inl (beq_iff_eq.mp indirect))
  · rw [jsr] at suits
    exact .inl ⟨beq_iff_eq.mp suits, .inr jsr⟩
  · obtain ⟨taken, action⟩ := Mnemonic.action_of_isBranch branch
    rw [action] at suits
    exact .inr (.inr (beq_iff_eq.mp suits))

namespace OperandView

open Text

variable {β : Type} [Bus β]

theorem ofInstruction_ne_none (bus : β) (r : Registers) (address : UInt16) (i : Instruction)
    (operand : i.mode ≠ .implied) : ofInstruction bus r address i ≠ .none := by
  obtain ⟨mnemonic, mode, cycles, official⟩ := i
  cases mode with
  | implied => exact absurd rfl operand
  | absolute =>
    by_cases goes : mnemonic = .jmp ∨ mnemonic = .jsr
    · rw [ofInstruction, if_pos goes]
      exact nofun
    · rw [ofInstruction, if_neg goes]
      exact nofun
  | _ => exact nofun

/-- The comma goes with the index, as both are written in the instruction. -/
theorem render_ofZeroPageIndexed (bus : β) (r : Registers) (base : UInt8) (index : IndexRegister) :
    let effective := zeroPageAddress (base + index.value r)
    (ofZeroPageIndexed bus r base index).render = "$" ++ hexByte base ++ ("," ++ index.name) ++
      " @ " ++ hexByte (lowByte effective) ++ " = " ++ hexByte (Bus.peek bus effective) := by
  intro effective
  rw [lowByte_zeroPageAddress, ← String.append_assoc]
  rfl

theorem render_ofAbsoluteIndexed (bus : β) (r : Registers) (base : UInt16)
    (index : IndexRegister) :
    let effective := base + (index.value r).toUInt16
    (ofAbsoluteIndexed bus r base index).render = "$" ++ hexWord base ++ ("," ++ index.name) ++
      " @ " ++ hexWord effective ++ " = " ++ hexByte (Bus.peek bus effective) := by
  intro effective
  rw [← String.append_assoc]
  rfl

/-- An operand in memory is shown with the effective address behind its mark, and the byte
found there. -/
theorem render_ofInstruction_of_inMemory (bus : β) (r : Registers) (address : UInt16)
    (i : Instruction) (inMemory : i.mode.inMemory = true)
    (data : i.mnemonic ≠ .jmp ∧ i.mnemonic ≠ .jsr) :
    let effective := (i.mode.operand (Bus.peek bus) r (address + 1)).address
    (ofInstruction bus r address i).render =
      i.mode.written (Bus.peek bus) r (address + 1) ++ i.mode.mark ++
        i.mode.addressText effective ++ " = " ++ hexByte (Bus.peek bus effective) := by
  intro effective
  obtain ⟨mnemonic, mode, cycles, official⟩ := i
  cases mode with
  | zeroPage =>
    have digits : Mode.addressText effective .zeroPage = hexByte (Bus.peek bus (address + 1)) :=
      congrArg hexByte (lowByte_zeroPageAddress _)
    rw [digits]
    rfl
  | zeroPageX => exact render_ofZeroPageIndexed bus r _ .x
  | zeroPageY => exact render_ofZeroPageIndexed bus r _ .y
  | absolute =>
    rw [ofInstruction, if_neg (not_or.mpr data)]
    rfl
  | absoluteX => exact render_ofAbsoluteIndexed bus r _ .x
  | absoluteY => exact render_ofAbsoluteIndexed bus r _ .y
  | indexedIndirect | indirectIndexed => rfl
  | _ => cases inMemory

/-- The place where a jump, a call or a branch goes on is shown behind its mark, and nothing
after it. -/
theorem render_ofInstruction_of_goes (bus : β) (r : Registers) (address : UInt16)
    (i : Instruction) (suits : i.mnemonic.action.suits i.mode = true)
    (goes : i.mnemonic = .jmp ∨ i.mnemonic = .jsr ∨ i.mnemonic.isBranch = true) :
    (ofInstruction bus r address i).render =
      i.mode.written (Bus.peek bus) r (address + 1) ++ i.mode.mark ++
        hexWord (i.mode.operand (Bus.peek bus) r (address + 1)).address := by
  have modes := i.mode_of_goes suits goes
  obtain ⟨mnemonic, mode, cycles, official⟩ := i
  rcases modes with ⟨absolute, calls⟩ | indirect | relative
  · cases absolute
    rw [ofInstruction, if_pos calls]
    rfl
  · cases indirect
    -- The bracket ends what is written, and the mark begins behind it.
    have closed (s : String) : s ++ ") = " = s ++ ")" ++ " = " := by
      rw [String.append_assoc]
      rfl
    exact congrArg (· ++ hexWord _) (closed _)
  · cases relative
    change "$" ++ hexWord (displaced (address + 2) _) = "$" ++ hexWord (displaced _ _)
    rw [add_one_add_one]

end OperandView

namespace Disassembly

variable {β : Type} [Bus β]

theorem text_of_operand {d : Disassembly} (h : d.operand ≠ .none) :
    d.text = d.instruction.label ++ " " ++ d.operand.render := by
  have body : d.body = d.instruction.mnemonic.name ++ " " ++ d.operand.render := by
    rw [Disassembly.body]
    split
    · contradiction
    · rfl
  rw [text, Instruction.label, body]
  by_cases official : d.instruction.official
  · rw [if_pos official, if_pos official, String.empty_append]
  · rw [if_neg official, if_neg official]
    simp only [String.append_assoc]

/-- The instruction that follows in memory is where the operand ends. -/
theorem nextAddress_disassemble (bus : β) (r : Registers) (address : UInt16) :
    (disassemble bus r address).nextAddress =
      (Instruction.decode (Bus.peek bus address)).mode.afterOperand (address + 1) := by
  have three : address + 1 + 2 = address + 3 := by grind
  rw [nextAddress, disassemble, Bus.length_peekMany]
  cases (Instruction.decode (Bus.peek bus address)).mode <;>
    simp [Mode.afterOperand, Mode.size, add_one_add_one, three]

theorem length_bytes_disassemble (bus : β) (r : Registers) (address : UInt16) :
    0 < (disassemble bus r address).bytes.length ∧ (disassemble bus r address).bytes.length ≤ 3 := by
  rw [disassemble, Bus.length_peekMany]
  cases (Instruction.decode (Bus.peek bus address)).mode <;> decide

theorem text_disassemble_of_ne (bus : β) (r : Registers) (address : UInt16) :
    let i := Instruction.decode (Bus.peek bus address)
    i.mode ≠ .implied → (disassemble bus r address).text =
      i.label ++ " " ++ (OperandView.ofInstruction bus r address i).render := by
  intro i present
  exact text_of_operand (OperandView.ofInstruction_ne_none bus r address i present)

/-- The text of an instruction on memory, from end to end. -/
theorem text_disassemble_of_inMemory (bus : β) (r : Registers) (address : UInt16) :
    let i := Instruction.decode (Bus.peek bus address)
    let effective := (i.mode.operand (Bus.peek bus) r (address + 1)).address
    i.mode.inMemory = true → i.mnemonic ≠ .jmp ∧ i.mnemonic ≠ .jsr →
      (disassemble bus r address).text =
        i.label ++ " " ++ i.mode.written (Bus.peek bus) r (address + 1) ++ i.mode.mark ++
          i.mode.addressText effective ++ " = " ++ Text.hexByte (Bus.peek bus effective) := by
  intro i effective inMemory data
  have present : i.mode ≠ .implied := by
    intro implied
    rw [implied] at inMemory
    cases inMemory
  have render := OperandView.render_ofInstruction_of_inMemory bus r address i inMemory data
  rw [text_disassemble_of_ne bus r address present, render]
  simp only [effective, i, String.append_assoc]

theorem text_disassemble_of_goes (bus : β) (r : Registers) (address : UInt16) :
    let i := Instruction.decode (Bus.peek bus address)
    i.mnemonic = .jmp ∨ i.mnemonic = .jsr ∨ i.mnemonic.isBranch = true →
      (disassemble bus r address).text =
        i.label ++ " " ++ i.mode.written (Bus.peek bus) r (address + 1) ++ i.mode.mark ++
          Text.hexWord (i.mode.operand (Bus.peek bus) r (address + 1)).address := by
  intro i goes
  have suits : i.mnemonic.action.suits i.mode = true := Instruction.suits_decode _
  have present : i.mode ≠ .implied := by
    rcases i.mode_of_goes suits goes with ⟨mode, -⟩ | mode | mode <;> rw [mode] <;> exact nofun
  have render := OperandView.render_ofInstruction_of_goes bus r address i suits goes
  rw [text_disassemble_of_ne bus r address present, render]
  simp only [i, String.append_assoc]

end Disassembly

/-- Whether an operation goes on elsewhere than at the instruction that follows. -/
def Mnemonic.redirects (p : Status) (mnemonic : Mnemonic) : Bool :=
  match mnemonic with
  | .jmp | .jsr | .rts | .rti | .brk => true
  | _ => mnemonic.branches p

theorem Action.pc_branch (view : View) (r : Registers) (operand : Operand)
    (taken : Registers → Bool) :
    ((Action.branch taken).effect view r operand).registers.pc =
      if taken r then operand.address else r.pc := by
  rw [Action.effect]
  split <;> rfl

/-- The other operations leave the program counter alone. -/
theorem Mnemonic.pc_of_stays (view : View) (r : Registers) (pc : UInt16) (operand : Operand)
    {mnemonic : Mnemonic} (stays : mnemonic.redirects r.p = false) :
    (mnemonic.action.effect view { r with pc } operand).registers.pc = pc := by
  cases mnemonic with
  | jmp | jsr | rts | rti | brk => cases stays
  | bcc | bcs | bne | beq | bpl | bmi | bvc | bvs =>
    exact (Action.pc_branch view _ operand _).trans (if_neg (Bool.eq_false_iff.mp stays))
  | _ => cases operand <;> rfl

theorem Mnemonic.pc_of_goes (view : View) (r : Registers) (pc : UInt16) (operand : Operand)
    {mnemonic : Mnemonic}
    (goes : mnemonic = .jmp ∨ mnemonic = .jsr ∨ mnemonic.branches r.p = true) :
    (mnemonic.action.effect view { r with pc } operand).registers.pc = operand.address := by
  rcases goes with rfl | rfl | branches
  · rfl
  · rfl
  · obtain ⟨taken, action⟩ := action_of_isBranch (isBranch_of_branches branches)
    have holds := (branches_action { r with pc } mnemonic).trans branches
    rw [action] at holds
    rw [action, Action.pc_branch]
    exact if_pos holds

theorem Instruction.dataRequests_of_reads (view : View) (r : Registers) (i : Instruction)
    (inMemory : i.mode.inMemory = true)
    (reads : i.mnemonic.usesValue = true ∨ i.mnemonic.access = .modify) :
    ∃ rest, i.dataRequests view r =
      .read (i.mode.operand view r (r.pc + 1)).address :: rest := by
  obtain ⟨mnemonic, mode, cycles, official⟩ := i
  have other : mode ≠ .accumulator := by
    rintro rfl
    cases inMemory
  cases mnemonic with
  | lda | ldx | ldy | adc | sbc | and | ora | eor | cmp | cpx | cpy | bit
  | lax | anc | alr | arr | axs | xaa | lxa | las => exact ⟨[], rfl⟩
  | asl | lsr | rol | ror | inc | dec | slo | rla | sre | rra | dcp | isb =>
    exact ⟨_, if_neg other⟩
  | _ => rcases reads with h | h <;> cases h

namespace Machine

/-- After a load or a change in place has found its operand, the first thing on the bus is
the read of the byte at the effective address, as memory was before the step. -/
theorem traffic_step_of_reads (m : Machine FlatMemory) (running : m.cpu.halted = false)
    {i : Instruction} (decoded : i = Instruction.decode (m.bus.get m.cpu.registers.pc))
    (inMemory : i.mode.inMemory = true)
    (reads : i.mnemonic.usesValue = true ∨ i.mnemonic.access = .modify) :
    let found := (m.recorded.fetch.2.resolve i.mode i.mnemonic.access).2
    let effective := (i.mode.operand m.bus.get m.cpu.registers (m.cpu.registers.pc + 1)).address
    ∃ rest, m.recorded.step.bus.traffic.toList =
      found.bus.traffic.toList ++ .read effective (m.bus.get effective) :: rest := by
  intro found effective
  let view : View := m.bus.get
  let r := m.cpu.registers
  let finding := (Effect.ofFetch r).andThen
    (i.mode.effect view r (r.pc + 1) i.mnemonic.access)
  obtain ⟨rest, data⟩ := i.dataRequests_of_reads view r inMemory reads
  have requests : (stepEffect view r).requests =
      finding.requests ++ .read effective :: rest := by
    rw [requests_stepEffect, ← decoded, Instruction.requests, data]
    rfl
  have unchanged : Bus.serveAll view finding.requests = view := by
    rw [Effect.requests_andThen, Bus.serveAll_append]
    exact Mode.serveAll_requests view r (r.pc + 1) i.mnemonic.access i.mode
  have traffic : found.bus.traffic.toList = Bus.transfers m.bus finding.requests := by
    simp only [found, resolve_fetch_eq]
    exact traffic_undergo_recorded m finding
  refine ⟨Bus.transfers view rest, ?_⟩
  rw [traffic_step_recorded m running, traffic, Bus.transfers_peek m.bus,
    Bus.transfers_peek m.bus finding.requests]
  change Bus.transfers view (stepEffect view r).requests = _
  rw [requests, Bus.transfers_append, unchanged]
  rfl

/-- The disassembly before a step tells what the step does: its bytes are those that follow
the opcode, the next instruction is where execution goes on unless it is led elsewhere,
the effective address and the byte there are those of the processor, and a jump, a call or
a branch that is taken goes on at the place shown. The text is given from end to end. -/
theorem step_of_disassemble (m : Machine FlatMemory) (running : m.cpu.halted = false) :
    let r := m.cpu.registers
    let d := disassemble m.bus r r.pc
    let fetched := m.recorded.fetch
    let i := Instruction.decode fetched.1
    let resolved := fetched.2.resolve i.mode i.mnemonic.access
    d.bytes = (List.range i.mode.size).map (fun k => m.bus.get (r.pc + UInt16.ofNat k)) ∧
      (i.mnemonic.redirects r.p = false → m.step.cpu.registers.pc = d.nextAddress) ∧
      (i.mode.inMemory = true → i.mnemonic ≠ .jmp ∧ i.mnemonic ≠ .jsr →
        ∃ address, resolved.1 = .memory address ∧
          (i.mode.inPageZero = true → highByte address = 0) ∧
          d.text = i.label ++ " " ++ i.mode.written m.bus.get r (r.pc + 1) ++ i.mode.mark ++
            i.mode.addressText address ++ " = " ++ Text.hexByte (m.bus.get address) ∧
          (i.mnemonic.usesValue = true ∨ i.mnemonic.access = .modify →
            ∃ rest, m.recorded.step.bus.traffic.toList =
              resolved.2.bus.traffic.toList ++ .read address (m.bus.get address) :: rest)) ∧
      (i.mnemonic = .jmp ∨ i.mnemonic = .jsr ∨ i.mnemonic.branches r.p = true →
        d.text = i.label ++ " " ++ i.mode.written m.bus.get r (r.pc + 1) ++ i.mode.mark ++
          Text.hexWord m.step.cpu.registers.pc) := by
  intro r d fetched i resolved
  have opcode : fetched.1 = m.bus.get r.pc := by
    simp only [fetched, fetch_eq]
    rfl
  have decoded : i = Instruction.decode (m.bus.get r.pc) := congrArg Instruction.decode opcode
  have found : resolved.1 = i.mode.operand m.bus.get r (r.pc + 1) := by
    simp only [resolved, fetched, resolve_fetch_eq]
    rfl
  have stepped : m.step.cpu.registers.pc = (i.mnemonic.action.effect m.bus.get
      { r with pc := i.mode.afterOperand (r.pc + 1) }
      (i.mode.operand m.bus.get r (r.pc + 1))).registers.pc := by
    rw [registers_step m running, decoded]
    rfl
  refine ⟨?_, ?_, ?_, ?_⟩
  · rw [decoded]
    exact Bus.peekMany_eq_map m.bus r.pc _
  · intro stays
    rw [stepped, Mnemonic.pc_of_stays _ r _ _ stays, Disassembly.nextAddress_disassemble, decoded]
    rfl
  · intro inMemory data
    have memory : resolved.1 = .memory (i.mode.operand m.bus.get r (r.pc + 1)).address :=
      found.trans (Mode.operand_eq_memory m.bus.get r (r.pc + 1) inMemory)
    refine ⟨_, memory, ?_, ?_, ?_⟩
    · intro inPageZero
      exact Mode.highByte_address _ _ _ inPageZero
    · rw [decoded]
      exact Disassembly.text_disassemble_of_inMemory m.bus r r.pc (decoded ▸ inMemory)
        (decoded ▸ data)
    · intro reads
      exact traffic_step_of_reads m running decoded inMemory reads
  · intro goes
    have stated : i.mnemonic = .jmp ∨ i.mnemonic = .jsr ∨ i.mnemonic.isBranch = true :=
      goes.imp_right (Or.imp_right Mnemonic.isBranch_of_branches)
    rw [stepped, Mnemonic.pc_of_goes _ r _ _ goes, decoded]
    exact Disassembly.text_disassemble_of_goes m.bus r r.pc (decoded ▸ stated)

/-- A load through a pointer that wraps around in page zero, by an instruction that ends at
the last address. -/
theorem step_of_disassemble_wrapped :
    let memory := (((((FlatMemory.zero.set 0xFFFE 0xB1).set 0xFFFF 0xFF).set 0x00FF 0xF0).set
      0x0000 0x12).set 0x1300 0x7F)
    let m : Machine FlatMemory :=
      ⟨⟨⟨0, 0, 0x10, 0xFD, 0xFFFE, Status.ofByte 0⟩, 7, false, none⟩, memory⟩
    let d := disassemble m.bus m.cpu.registers m.cpu.registers.pc
    m.cpu.halted = false ∧ m.step.cpu.registers.pc = d.nextAddress ∧ d.bytes = [0xB1, 0xFF] ∧
      d.text = "LDA ($FF),Y = 12F0 @ 1300 = 7F" ∧
      .read 0x1300 0x7F ∈ m.recorded.step.bus.traffic.toList := by
  intro memory m d
  have opcode : memory.get 0xFFFE = 0xB1 := by simp [memory, FlatMemory.get_set]
  have operand : memory.get 0xFFFF = 0xFF := by simp [memory, FlatMemory.get_set]
  have low : memory.get 0x00FF = 0xF0 := by simp [memory, FlatMemory.get_set]
  have high : memory.get 0x0000 = 0x12 := by simp [memory, FlatMemory.get_set]
  have value : memory.get 0x1300 = 0x7F := by simp [memory, FlatMemory.get_set]
  have target : Bus.peekZeroPageWord memory.get 0xFF = 0x12F0 := by
    simp [Bus.peekZeroPageWord, zeroPageAddress, low, high]
    decide
  -- The bytes looked up above are all that is needed of the memory.
  clear_value memory
  have decoded : Instruction.decode m.recorded.fetch.1 = .documented .lda .indirectIndexed 5 := by
    have fetched : m.recorded.fetch.1 = memory.get 0xFFFE := by
      rw [fetch_eq]
      rfl
    rw [fetched, opcode]
    rfl
  have found : (m.recorded.fetch.2.resolve .indirectIndexed .read).1 = .memory 0x1300 := by
    have effective : Bus.peekZeroPageWord memory.get (memory.get 0xFFFF) + 0x10 = 0x1300 := by
      rw [operand, target]
      rfl
    rw [resolve_fetch_eq]
    exact congrArg Operand.memory effective
  obtain ⟨bytes, next, shown, -⟩ := step_of_disassemble m rfl
  rw [decoded] at bytes next shown
  obtain ⟨address, resolved, -, text, traffic⟩ := shown rfl ⟨by decide, by decide⟩
  obtain ⟨rest, traffic⟩ := traffic (.inl rfl)
  obtain rfl : 0x1300 = address := Operand.memory.inj (found.symm.trans resolved)
  have byte : m.bus.get 0x1300 = 0x7F := value
  rw [byte] at text traffic
  have written : Mode.indirectIndexed.written m.bus.get m.cpu.registers
      (m.cpu.registers.pc + 1) = "($FF),Y = 12F0" := by
    have pointer : m.bus.get (m.cpu.registers.pc + 1) = 0xFF := operand
    have base : Bus.peekZeroPageWord m.bus.get 0xFF = 0x12F0 := target
    rw [Mode.written, pointer, base]
    decide
  refine ⟨rfl, next rfl, ?_, ?_, ?_⟩
  · rw [← opcode, ← operand]
    exact bytes
  · have parts : d.text = "LDA" ++ " " ++ Mode.indirectIndexed.written m.bus.get m.cpu.registers
        (m.cpu.registers.pc + 1) ++ " @ " ++ Text.hexWord 0x1300 ++ " = " ++ Text.hexByte 0x7F :=
      text
    rw [parts, written]
    decide
  · rw [traffic]
    exact List.mem_append_right _ (List.mem_cons_self ..)

end Machine
end NesMachine
