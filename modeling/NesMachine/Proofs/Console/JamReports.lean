import NesMachine.Proofs.Console.AddressTable
import NesMachine.Proofs.Console.StatusProtocol
import NesMachine.Proofs.Processor.Jams

/-!
# Jams that a run reports

A run that ends in a jam names the address of its last instruction, and that instruction is
one of the twelve that jam. The opcode that it names is looked at a second time once the
instruction has run. That is the byte which was fetched, except where the status register of
the picture unit answers: fetching from there has turned the highest bit over.
-/
namespace NesMachine

namespace Console

variable {c : Console}

/-- The byte that the next instruction is fetched as. -/
def opcode (c : Console) : UInt8 := (c.read c.pc).1

/-- A step that reports a jam has fetched an opcode that jams, and nothing else has happened
on the bus. -/
theorem jam_of_step (running : c.cpu.halted = false) (report : c.step.1 = .ok true) :
    c.opcode ∈ jamOpcodes ∧ c.step.2.pc = c.pc + 1 ∧
      c.step.2.bus.peek = (c.read c.pc).2.bus.peek := by
  have jams : (Instruction.decode c.machine.fetch.1).mnemonic.action.jams = true := by
    have halted := halted_of_step report
    rw [Machine.halted_step_eq] at halted
    simpa [show c.machine.cpu.halted = false from running] using halted
  obtain ⟨bus, registers⟩ := c.machine.step_of_jams running jams
  refine ⟨?_, ?_, ?_⟩
  · exact (Instruction.mnemonic_decode_eq_kil_iff _).mp ((Mnemonic.jams_action _).mp jams)
  · rw [pc_step, registers]
    rfl
  · rw [ConsoleBus.peek_of_devices c.devices_step, bus]
    rfl

/-- What is found where a jam was fetched, once it has happened. -/
theorem peek_of_jam (running : c.cpu.halted = false) (report : c.step.1 = .ok true) :
    c.step.2.peek c.pc = if IsStatusMirror c.pc then c.opcode ^^^ 0x80 else c.opcode := by
  have shown : c.step.2.peek c.pc = (c.machine.bus.read c.pc).2.peek c.pc :=
    congrFun (jam_of_step running report).2.2 c.pc
  have fetched : c.opcode = c.machine.bus.peek c.pc := c.machine.bus.read_value c.pc
  rw [shown, ConsoleBus.peek_read, fetched]
  simp only [and_self]

end Console

namespace TestStatus

namespace Head

theorem running_press {h : Head} (running : h.console.cpu.halted = false) :
    h.press.1.cpu.halted = false := by
  rcases h.press_cases with spared | pressed
  · rw [spared, running]
  · rw [pressed]
    rfl

theorem running_next {start budget : Nat} {h : Head} (goesOn : h.GoesOn start budget) :
    h.next.console.cpu.halted = false := by
  show h.press.1.step.2.cpu.halted = false
  rw [Console.halted_step, Console.halted_of_step goesOn.steps]

end Head

/-- No head that a run comes to is jammed, if the console was not when the run began. -/
theorem running_headAt {c : Console} (running : c.cpu.halted = false) {start budget k : Nat}
    (before : ∀ j < k, (headAt c j).GoesOn start budget) :
    (headAt c k).console.cpu.halted = false := by
  cases k with
  | zero => exact running
  | succ k =>
    rw [headAt_succ]
    exact Head.running_next (before k (Nat.lt_succ_self k))

/-- A run that reports a jam names the address of its last instruction, whose opcode jams, and
names that opcode too, but with the highest bit turned over where the status register of the
picture unit answers. -/
theorem jam_of_run {c : Console} (running : c.cpu.halted = false) {budget : Nat} {pc : UInt16}
    {opcode : UInt8} (report : (run c budget).1 = .error (.jammed pc opcode)) :
    ∃ k, (∀ j < k, (headAt c j).GoesOn c.cycles budget) ∧
      let last := (headAt c k).press.1
      (run c budget).2 = last.step.2 ∧ pc = last.pc ∧ last.opcode ∈ jamOpcodes ∧
        opcode = if IsStatusMirror pc then last.opcode ^^^ 0x80 else last.opcode := by
  obtain ⟨k, -, before, -, ends⟩ := exists_last c budget
  have awake := Head.running_press (running_headAt running before)
  refine ⟨k, before, ?_⟩
  generalize run c budget = result at ends report
  cases ends with
  | result | timeout | fault => cases report
  | @jam silent within d step =>
    have reported : (headAt c k).press.1.step.1 = .ok true := congrArg Prod.fst step
    have moved : d = (headAt c k).press.1.step.2 := congrArg Prod.snd step.symm
    obtain ⟨jams, past, -⟩ := Console.jam_of_step awake reported
    have back : d.pc - 1 = (headAt c k).press.1.pc := by
      rw [moved, past]
      exact UInt16.add_sub_cancel _ 1
    have named : d.pc - 1 = pc ∧ d.peek (d.pc - 1) = opcode := by
      simpa using report
    rw [back] at named
    refine ⟨moved, named.1.symm, jams, ?_⟩
    rw [← named.2, ← named.1, moved]
    exact Console.peek_of_jam awake reported

/-- A console about to run from the status register, when the byte last written to a register
was an opcode that jams. -/
def atStatusRegister : Console :=
  (Console.switchedOn (.ofImage Cartridge.trainedImage) .trained).after
    [.write 0x2000 0x02, .jump 0x2002]

example : atStatusRegister.opcode = 0x02 := by decide

theorem run_atStatusRegister :
    (run atStatusRegister 100).1 = .error (.jammed 0x2002 0x82) := by
  have bus : atStatusRegister.machine.bus = { ConsoleBus.powerOn .trained true with
      picture := PictureUnit.powerOn.write 0x2000 0x02 } := rfl
  have blank : atStatusRegister.peek 0x6001 = 0 := by
    rw [Console.peek, bus, ConsoleBus.peek_withPicture, if_neg (by decide),
      ConsoleBus.peek_powerOn Cartridge.ofImage_trainedImage true (by decide)]
  have unstarted : started atStatusRegister = false := by
    simp [started, signature, blank]
  have observed : observe atStatusRegister 0 ⟨none, none⟩ = .ok ⟨none, none⟩ := by
    rw [observe, unstarted]
    rfl
  have pressed : pressReset atStatusRegister ⟨none, none⟩ = (atStatusRegister, ⟨none, none⟩) := rfl
  have early : ¬ 100 ≤ 0 := by decide
  have stepped : atStatusRegister.step = (.ok true, atStatusRegister.step.2) := Prod.ext rfl rfl
  have named : atStatusRegister.step.2.pc - 1 = 0x2002 := by decide
  have shown : atStatusRegister.step.2.peek 0x2002 = 0x82 := by decide
  rw [run, runFrom]
  simp only [Nat.sub_self, observed, pressed, if_neg early]
  rw [stepped]
  simp only [named, shown]

/-- The opcode that a run names need not be one that jams. -/
theorem not_forall_opcode_of_jam : ¬ ∀ (settings : Settings) (console : Console)
    (commands : List Command) (budget : Nat) (pc : UInt16) (opcode : UInt8),
    Console.powerOn settings = .ok console → (console.after commands).cpu.halted = false →
      (run (console.after commands) budget).1 = .error (.jammed pc opcode) →
        opcode ∈ jamOpcodes := by
  intro claimed
  have on : Console.powerOn (.ofImage Cartridge.trainedImage) = _ :=
    Console.powerOn_of_ofImage Cartridge.ofImage_trainedImage
  have listed := claimed _ _ [.write 0x2000 0x02, .jump 0x2002] 100 0x2002 0x82 on rfl
    run_atStatusRegister
  exact absurd listed (by decide)

theorem jam_of_run_atStatusRegister :
    atStatusRegister.cpu.halted = false ∧
    (run atStatusRegister 100).1 = .error (.jammed 0x2002 0x82) ∧
    ∃ k, (∀ j < k, (headAt atStatusRegister j).GoesOn atStatusRegister.cycles 100) ∧
      let last := (headAt atStatusRegister k).press.1
      last.pc = 0x2002 ∧ last.opcode ∈ jamOpcodes ∧ 0x82 = last.opcode ^^^ 0x80 := by
  obtain ⟨k, before, -, pc, jams, opcode⟩ := jam_of_run rfl run_atStatusRegister
  rw [if_pos (by decide)] at opcode
  exact ⟨rfl, run_atStatusRegister, k, before, pc.symm, jams, opcode⟩

end TestStatus
end NesMachine
