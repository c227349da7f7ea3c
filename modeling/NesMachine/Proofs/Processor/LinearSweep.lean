import Mathlib.Data.List.Basic
import NesMachine.Proofs.Bus.StaleBytes
import NesMachine.Proofs.Processor.Commands
import NesMachine.Proofs.Processor.DisassemblyLockstep
import NesMachine.Proofs.Processor.Jams

/-!
# Linear sweeps

A listing takes up each instruction where the one before it ends, so its bytes are those of
memory without a gap. As long as no instruction leads execution elsewhere or jams, and none of
the listed bytes is overwritten, the processor goes through the listing from one line to the
next.
-/
namespace NesMachine

/-- Whether an operation always goes on at the instruction that follows in memory. -/
def Mnemonic.fallsThrough (mnemonic : Mnemonic) : Bool :=
  match mnemonic with
  | .jmp | .jsr | .rts | .rti | .brk | .kil => false
  | _ => !mnemonic.isBranch

theorem Mnemonic.redirects_of_fallsThrough (p : Status) {mnemonic : Mnemonic}
    (fallsThrough : mnemonic.fallsThrough = true) : mnemonic.redirects p = false := by
  cases mnemonic with
  | jmp | jsr | rts | rti | brk | bcc | bcs | beq | bmi | bne | bpl | bvc | bvs =>
    cases fallsThrough
  | _ => rfl

theorem Mnemonic.jams_of_fallsThrough {mnemonic : Mnemonic}
    (fallsThrough : mnemonic.fallsThrough = true) : mnemonic.action.jams = false := by
  refine Bool.eq_false_iff.mpr fun jams => ?_
  rw [(jams_action mnemonic).mp jams] at fallsThrough
  cases fallsThrough

namespace Disassembly

/-- Where its bytes are. -/
def addresses (d : Disassembly) : List UInt16 :=
  (List.range d.bytes.length).map fun k => d.address + UInt16.ofNat k

section Sweep

variable {β : Type} [Bus β]

/-- So many instructions, each where the one before it ends. -/
def sweep (bus : β) (r : Registers) (start : UInt16) : Nat → List Disassembly
  | 0 => []
  | count + 1 =>
    let d := disassemble bus r start
    d :: sweep bus r d.nextAddress count

/-- Where the last instruction of a listing ends. -/
def sweepEnd (start : UInt16) (listing : List Disassembly) : UInt16 :=
  listing.getLast?.elim start nextAddress

theorem sweepEnd_cons (start : UInt16) (d : Disassembly) (rest : List Disassembly) :
    sweepEnd start (d :: rest) = sweepEnd d.nextAddress rest := by
  rw [sweepEnd, List.getLast?_cons, Option.elim_some, sweepEnd]
  cases rest.getLast? <;> rfl

variable (bus : β) (r : Registers) (start : UInt16) (count : Nat)

theorem length_sweep : (sweep bus r start count).length = count := by
  induction count generalizing start with
  | zero => rfl
  | succ count ih => rw [sweep, List.length_cons, ih]

theorem exists_of_mem_sweep {d : Disassembly} (listed : d ∈ sweep bus r start count) :
    ∃ a, d = disassemble bus r a := by
  induction count generalizing start with
  | zero => cases listed
  | succ count ih =>
    rcases List.mem_cons.mp listed with first | later
    · exact ⟨start, first⟩
    · exact ih _ later

theorem mem_addresses_disassemble : start ∈ (disassemble bus r start).addresses := by
  obtain ⟨some, -⟩ := length_bytes_disassemble bus r start
  exact List.mem_map.mpr ⟨0, List.mem_range.mpr some, UInt16.add_zero start⟩

theorem bytes_disassemble_eq_map : (disassemble bus r start).bytes =
    (disassemble bus r start).addresses.map (Bus.peek bus) := by
  rw [addresses, List.map_map, disassemble, Bus.length_peekMany]
  exact Bus.peekMany_eq_map bus start _

/-- Listed instructions leave no gap, and go around at the top of memory. -/
theorem addresses_sweep : (sweep bus r start count).flatMap addresses =
    (List.range ((sweep bus r start count).flatMap bytes).length).map
      fun k => start + UInt16.ofNat k := by
  induction count generalizing start with
  | zero => rfl
  | succ count ih =>
    have further (k : Nat) : (disassemble bus r start).nextAddress + UInt16.ofNat k =
        start + UInt16.ofNat ((disassemble bus r start).bytes.length + k) := by
      rw [UInt16.ofNat_add, ← UInt16.add_assoc]
      rfl
    rw [sweep, List.flatMap_cons, List.flatMap_cons, List.length_append, List.range_add,
      List.map_append, List.map_map, ih, funext further]
    rfl

theorem bytes_sweep : (sweep bus r start count).flatMap bytes =
    (List.range ((sweep bus r start count).flatMap bytes).length).map
      fun k => Bus.peek bus (start + UInt16.ofNat k) := by
  have each : (sweep bus r start count).flatMap bytes =
      ((sweep bus r start count).flatMap addresses).map (Bus.peek bus) := by
    rw [List.map_flatMap]
    refine List.flatMap_congr fun d listed => ?_
    obtain ⟨a, rfl⟩ := exists_of_mem_sweep bus r start count listed
    exact bytes_disassemble_eq_map bus r a
  refine each.trans ?_
  rw [addresses_sweep, List.map_map]
  rfl

end Sweep

end Disassembly

namespace Machine

open Disassembly

def stepped {β : Type} [Bus β] (m : Machine β) (k : Nat) : Machine β :=
  m.after (List.replicate k .step)

theorem stepped_zero {β : Type} [Bus β] (m : Machine β) : m.stepped 0 = m := rfl

theorem stepped_succ {β : Type} [Bus β] (m : Machine β) (k : Nat) :
    m.stepped (k + 1) = m.step.stepped k := rfl

/-- What such an operation goes on with is the instruction that is listed next, also by someone
who only knows the opcode. -/
theorem step_of_fallsThrough (m : Machine FlatMemory) (running : m.cpu.halted = false)
    (memory : FlatMemory) (r : Registers)
    (opcode : m.bus.get m.cpu.registers.pc = memory.get m.cpu.registers.pc)
    (fallsThrough :
      (disassemble memory r m.cpu.registers.pc).instruction.mnemonic.fallsThrough = true) :
    m.step.cpu.halted = false ∧
      m.step.cpu.registers.pc = (disassemble memory r m.cpu.registers.pc).nextAddress := by
  have known :
      (Instruction.decode (m.bus.get m.cpu.registers.pc)).mnemonic.fallsThrough = true := by
    rw [opcode]
    exact fallsThrough
  constructor
  · have fetched : m.fetch.1 = m.bus.get m.cpu.registers.pc := congrArg Prod.fst m.fetch_eq
    rw [halted_step_eq, running, fetched, Mnemonic.jams_of_fallsThrough known]
    rfl
  · have here : Bus.peek memory m.cpu.registers.pc = m.bus.get m.cpu.registers.pc := opcode.symm
    rw [nextAddress_disassemble, here, registers_step m running]
    exact Mnemonic.pc_of_stays _ _ _ _ (Mnemonic.redirects_of_fallsThrough _ known)

theorem callsOf_step (m : Machine FlatMemory) (running : m.cpu.halted = false) :
    m.callsOf .step = (Instruction.decode (m.bus.get m.cpu.registers.pc)).requests m.bus.get
      m.cpu.registers :=
  (calls_step_recorded m running).trans (requests_stepEffect ..)

theorem get_step_of_notWritten (m : Machine FlatMemory) {a : UInt16}
    (unwritten : ∀ v, .write a v ∉ m.callsOf .step) : m.step.bus.get a = m.bus.get a := by
  have served : m.step.bus = Bus.serveAll m.bus (m.callsOf .step) := m.bus_obey .step
  rw [served, FlatMemory.get_serveAll]
  exact Bus.serveAll_of_notWritten unwritten

/-- The processor goes through a listing of some memory, as long as its own memory has the
listed bytes and keeps them. -/
theorem pc_stepped_of_fallsThrough (memory : FlatMemory) (r : Registers) (count : Nat)
    {m : Machine FlatMemory} (running : m.cpu.halted = false)
    (agree : ∀ d ∈ sweep memory r m.cpu.registers.pc count,
      ∀ a ∈ d.addresses, m.bus.get a = memory.get a)
    (fallsThrough : ∀ d ∈ sweep memory r m.cpu.registers.pc count,
      d.instruction.mnemonic.fallsThrough = true)
    (unwritten : ∀ k < count, ∀ a v, .write a v ∈ (m.stepped k).callsOf .step →
      ∀ d ∈ sweep memory r m.cpu.registers.pc count, a ∉ d.addresses) :
    ((List.range count).map fun k => (m.stepped k).cpu.registers.pc) =
        (sweep memory r m.cpu.registers.pc count).map address ∧
      (m.stepped count).cpu.registers.pc = sweepEnd m.cpu.registers.pc
        (sweep memory r m.cpu.registers.pc count) := by
  induction count generalizing m with
  | zero => exact ⟨rfl, rfl⟩
  | succ count ih =>
    let d := disassemble memory r m.cpu.registers.pc
    have listed : d ∈ sweep memory r m.cpu.registers.pc (count + 1) := List.mem_cons_self ..
    obtain ⟨running', next⟩ := m.step_of_fallsThrough running memory r
      (agree d listed _ (mem_addresses_disassemble ..)) (fallsThrough d listed)
    have rest : sweep memory r m.cpu.registers.pc (count + 1) =
        d :: sweep memory r m.step.cpu.registers.pc count := by
      rw [next]
      rfl
    rw [rest] at agree fallsThrough unwritten ⊢
    have later := ih running' ?_ ?_ ?_
    · rw [List.range_succ_eq_map, List.map_cons, List.map_map, List.map_cons, sweepEnd_cons,
        ← next, ← later.1]
      exact ⟨rfl, later.2⟩
    · intro e among a covered
      rw [m.get_step_of_notWritten fun v made =>
        unwritten 0 (Nat.succ_pos count) a v made e (List.mem_cons_of_mem _ among) covered]
      exact agree e (List.mem_cons_of_mem _ among) a covered
    · exact fun e among => fallsThrough e (List.mem_cons_of_mem _ among)
    · exact fun k below a v made e among =>
        unwritten (k + 1) (Nat.succ_lt_succ below) a v made e (List.mem_cons_of_mem _ among)

/-- A listing of consecutive instructions has the bytes of memory one after the other, in chunks
of one to three; and a running processor that starts where the listing does goes through it from
one instruction to the next, if none of them leads elsewhere or jams and no byte of the listing
is written on the way. -/
theorem pc_stepped_sweep (m : Machine FlatMemory) (start : UInt16) (count : Nat) :
    let listing := sweep m.bus m.cpu.registers start count
    let begun := m.jump start
    listing.length = count ∧
      listing.flatMap bytes = (List.range (listing.flatMap bytes).length).map
        (fun k => m.bus.get (start + UInt16.ofNat k)) ∧
      (∀ d ∈ listing, 1 ≤ d.bytes.length ∧ d.bytes.length ≤ 3) ∧
      (m.cpu.halted = false →
        (∀ d ∈ listing, d.instruction.mnemonic.fallsThrough = true) →
        (∀ k < count, ∀ a v, .write a v ∈ (begun.stepped k).callsOf .step →
          ∀ d ∈ listing, a ∉ d.addresses) →
        ((List.range count).map fun k => (begun.stepped k).cpu.registers.pc) =
            listing.map address ∧
          (begun.stepped count).cpu.registers.pc = listing.getLast?.elim start nextAddress) := by
  intro listing begun
  refine ⟨length_sweep .., bytes_sweep .., ?_, fun running fallsThrough unwritten => ?_⟩
  · intro d listed
    obtain ⟨a, rfl⟩ := exists_of_mem_sweep _ _ _ _ listed
    exact length_bytes_disassemble ..
  · exact pc_stepped_of_fallsThrough m.bus m.cpu.registers count running (fun _ _ _ _ => rfl)
      fallsThrough unwritten

/-- A store that goes around at the top of memory, and an undocumented operation that reads
nothing. -/
theorem pc_stepped_sweep_wrapped :
    let memory := (((((FlatMemory.zero.set 0xFFFF 0x8D).set 0x0000 0x10).set 0x0001 0x02).set
      0x0002 0x04).set 0x0003 0x33)
    let m : Machine FlatMemory :=
      ⟨⟨⟨0x5A, 0, 0, 0xFD, 0, Status.ofByte 0⟩, 7, false, none⟩, memory⟩
    let begun := m.jump 0xFFFF
    let listing := sweep m.bus m.cpu.registers 0xFFFF 2
    (listing.map address = [0xFFFF, 0x0002] ∧
      .write 0x0210 0x5A ∈ begun.callsOf .step) ∧
      ((List.range 2).map fun k => (begun.stepped k).cpu.registers.pc) = listing.map address ∧
      (begun.stepped 2).cpu.registers.pc = 0x0004 := by
  intro memory m begun listing
  have store : Instruction.decode (memory.get 0xFFFF) = .documented .sta .absolute 4 := by
    have opcode : memory.get 0xFFFF = 0x8D := by simp [memory, FlatMemory.get_set]
    rw [opcode]
    rfl
  have operand : Bus.peekWord memory.get 0x0000 = 0x0210 := by
    simp [Bus.peekWord, memory, FlatMemory.get_set]
    decide
  have nothing : Instruction.decode (memory.get 0x0002) = .undocumented .nop .zeroPage 3 := by
    have opcode : memory.get 0x0002 = 0x04 := by simp [memory, FlatMemory.get_set]
    rw [opcode]
    rfl
  -- The bytes looked up above are all that is needed of the memory.
  clear_value memory
  have second : (disassemble memory m.cpu.registers 0xFFFF).nextAddress = 0x0002 := by
    rw [nextAddress_disassemble]
    show (Instruction.decode (memory.get 0xFFFF)).mode.afterOperand 0 = 0x0002
    rw [store]
    rfl
  have third : (disassemble memory m.cpu.registers 0x0002).nextAddress = 0x0004 := by
    rw [nextAddress_disassemble]
    show (Instruction.decode (memory.get 0x0002)).mode.afterOperand 3 = 0x0004
    rw [nothing]
    rfl
  have listed : listing = [disassemble memory m.cpu.registers 0xFFFF,
      disassemble memory m.cpu.registers 0x0002] := by
    show [disassemble memory m.cpu.registers 0xFFFF, disassemble memory m.cpu.registers
      (disassemble memory m.cpu.registers 0xFFFF).nextAddress] = _
    rw [second]
  have straight : ∀ d ∈ listing, d.instruction.mnemonic.fallsThrough = true := by
    rw [listed]
    intro d among
    rcases List.mem_pair.mp among with rfl | rfl
    · show (Instruction.decode (memory.get 0xFFFF)).mnemonic.fallsThrough = true
      rw [store]
      rfl
    · show (Instruction.decode (memory.get 0x0002)).mnemonic.fallsThrough = true
      rw [nothing]
      rfl
  have calls : begun.callsOf .step =
      [.read 0xFFFF, .read 0x0000, .read 0x0001, .write 0x0210 0x5A] := by
    rw [callsOf_step begun rfl]
    show (Instruction.decode (memory.get 0xFFFF)).requests memory.get begun.cpu.registers = _
    rw [store]
    simp [Instruction.requests, Instruction.dataRequests, Instruction.documented, begun, m, jump,
      mapRegisters, Mode.operandRequests, Mode.pointerRequests, Mode.operand, Operand.address,
      Mnemonic.access, Mnemonic.storeRequest, Mnemonic.storedByte, operand]
  obtain ⟨running, next⟩ := begun.step_of_fallsThrough rfl memory m.cpu.registers rfl
    (straight _ (List.mem_cons_self ..))
  have pc : begun.step.cpu.registers.pc = 0x0002 := next.trans second
  have kept : begun.step.bus.get 0x0002 = memory.get 0x0002 :=
    begun.get_step_of_notWritten (by simp [calls])
  have calls' : begun.step.callsOf .step = [.read 0x0002, .read 0x0003] := by
    rw [callsOf_step _ running, pc, kept, nothing]
    show ([.read begun.step.cpu.registers.pc,
      .read (begun.step.cpu.registers.pc + 1)] : List Request) = _
    rw [pc]
    decide
  obtain ⟨-, -, -, visited⟩ := pc_stepped_sweep m 0xFFFF 2
  have outside : ∀ d ∈ listing, 0x0210 ∉ d.addresses := by
    intro d among covered
    obtain ⟨k, below, same⟩ := List.mem_map.mp covered
    have few : k < 3 := by
      obtain ⟨a, rfl⟩ := exists_of_mem_sweep _ _ _ _ among
      exact Nat.lt_of_lt_of_le (List.mem_range.mp below) (length_bytes_disassemble ..).2
    have far : ∀ k : Fin 3, (0xFFFF : UInt16) + UInt16.ofNat k ≠ 0x0210 ∧
        (0x0002 : UInt16) + UInt16.ofNat k ≠ 0x0210 := by decide
    rw [listed] at among
    rcases List.mem_pair.mp among with rfl | rfl
    · exact (far ⟨k, few⟩).1 same
    · exact (far ⟨k, few⟩).2 same
  have unwritten : ∀ k < 2, ∀ a v, .write a v ∈ (begun.stepped k).callsOf .step →
      ∀ d ∈ listing, a ∉ d.addresses := by
    intro k below a v made
    obtain rfl | rfl : k = 0 ∨ k = 1 := by omega
    · obtain ⟨rfl, rfl⟩ : a = 0x0210 ∧ v = 0x5A := by
        rw [stepped_zero] at made
        simpa [calls] using made
      exact outside
    · rw [stepped_succ, stepped_zero] at made
      simp [calls'] at made
  obtain ⟨pcs, last⟩ := visited rfl straight unwritten
  refine ⟨⟨?_, ?_⟩, pcs, last.trans ?_⟩
  · rw [listed]
    rfl
  · rw [calls]
    decide
  · show listing.getLast?.elim 0xFFFF nextAddress = 0x0004
    rw [listed]
    exact third

end Machine
end NesMachine
