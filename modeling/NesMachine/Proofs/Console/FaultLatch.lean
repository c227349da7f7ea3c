import Mathlib.Data.List.DropRight
import NesMachine.Proofs.Console.AddressTable

/-!
# The latch of the console's bus

A strict bus keeps the first fault since one was last taken, a lenient bus notes every fault
in its order, and neither tells of anything else. What was a fault has done nothing to the
devices, and so no later peek can tell that it was made.
-/
namespace NesMachine

/-- What the user of a bus does with it. -/
inductive BusCall where
  | access (request : Request)
  | peek (address : UInt16)
  | takeFault
  deriving DecidableEq, Repr

namespace BusCall

def fault? : BusCall → Option BusFault
  | .access request => request.fault?
  | .peek _ | .takeFault => none

/-- The calls since a fault was last taken, or all if none was. -/
def sinceTaken (calls : List BusCall) : List BusCall := calls.rtakeWhile (· ≠ .takeFault)

theorem sinceTaken_takeFault (calls : List BusCall) : sinceTaken (calls ++ [.takeFault]) = [] :=
  List.rtakeWhile_concat_neg _ _ _ (by decide)

theorem sinceTaken_concat {call : BusCall} (other : call ≠ .takeFault) (calls : List BusCall) :
    sinceTaken (calls ++ [call]) = sinceTaken calls ++ [call] :=
  List.rtakeWhile_concat_pos _ _ _ (decide_eq_true other)

end BusCall

namespace ConsoleBus

/-- The bus after a call. -/
def call (bus : ConsoleBus) : BusCall → ConsoleBus
  | .access request => Bus.serve bus request
  | .peek _ => bus
  | .takeFault => bus.takeFault.2

def afterCalls (bus : ConsoleBus) (calls : List BusCall) : ConsoleBus := calls.foldl call bus

theorem fitted_call {rom : Array UInt8} {bus : ConsoleBus} (fitted : bus.devices.Fitted rom)
    (call : BusCall) : (bus.call call).devices.Fitted rom := by
  cases call with
  | access request => exact fitted_serve fitted request
  | peek a | takeFault => exact fitted

/-- A fault goes where the bus puts its faults, behind those that are there. -/
theorem reports_call {rom : Array UInt8} {bus : ConsoleBus} (fitted : bus.devices.Fitted rom)
    {call : BusCall} (other : call ≠ .takeFault) : (bus.call call).reports =
      (bus.strict, if bus.strict then bus.fault.or call.fault? else bus.fault,
        if bus.strict then bus.ignored else bus.ignored ++ call.fault?.toArray) := by
  cases found : call.fault? with
  | none =>
    have same : (bus.call call).reports = bus.reports := by
      cases call with
      | access request => exact reports_serve fitted found
      | peek a => rfl
      | takeFault => exact absurd rfl other
    rw [same]
    simp [reports]
  | some fault =>
    cases call with
    | access request =>
      show (Bus.serve bus request).reports = _
      rw [serve_of_fault bus found]
      cases strict : bus.strict <;> simp [raise, reports, strict]
    | peek a | takeFault => cases found

/-- What a bus keeps after some calls since it was switched on. -/
structure Latched (rom : Array UInt8) (isStrict : Bool) (calls : List BusCall)
    (bus : ConsoleBus) : Prop where
  fitted : bus.devices.Fitted rom
  strict : bus.strict = isStrict
  fault : bus.fault =
    if isStrict then ((BusCall.sinceTaken calls).filterMap BusCall.fault?).head? else none
  ignored : bus.ignored.toList = if isStrict then [] else calls.filterMap BusCall.fault?

theorem Latched.call {rom : Array UInt8} {isStrict : Bool} {calls : List BusCall}
    {bus : ConsoleBus} (latched : Latched rom isStrict calls bus) (call : BusCall) :
    Latched rom isStrict (calls ++ [call]) (bus.call call) := by
  obtain ⟨fitted, rfl, fault, ignored⟩ := latched
  by_cases taken : call = .takeFault
  · subst taken
    refine ⟨fitted, rfl, ?_, ?_⟩
    · simp [ConsoleBus.call, takeFault, BusCall.sinceTaken_takeFault]
    · show bus.ignored.toList = _
      simpa [List.filterMap_cons, BusCall.fault?] using ignored
  · have reported := reports_call fitted taken
    simp only [reports, Prod.mk.injEq] at reported
    obtain ⟨strict', fault', ignored'⟩ := reported
    refine ⟨fitted_call fitted call, strict', ?_, ?_⟩
    · rw [fault', fault, BusCall.sinceTaken_concat taken]
      cases bus.strict <;> cases found : call.fault? <;> simp [found]
    · rw [ignored']
      cases strict : bus.strict <;> cases found : call.fault? <;>
        simp [found, ignored, strict]

theorem latched_afterCalls {image : Array UInt8} {cartridge : Cartridge}
    (accepted : Cartridge.ofImage image = .ok cartridge) (strict : Bool) (calls : List BusCall) :
    Latched cartridge.board.prgRom strict calls ((powerOn cartridge strict).afterCalls calls) := by
  induction calls using List.reverseRecOn with
  | nil =>
    refine ⟨fitted_powerOn accepted strict, rfl, ?_, ?_⟩
    · simp [afterCalls, powerOn, BusCall.sinceTaken]
    · simp [afterCalls, powerOn]
  | append_singleton calls call ih =>
    rw [afterCalls, List.foldl_concat]
    exact ih.call call

theorem devices_afterCalls {bus other : ConsoleBus} (same : bus.devices = other.devices)
    (calls : List BusCall) : (bus.afterCalls calls).devices = (other.afterCalls calls).devices := by
  induction calls generalizing bus other with
  | nil => exact same
  | cons call rest ih =>
    apply ih
    cases call with
    | access request =>
      show (Bus.serve bus request).devices = (Bus.serve other request).devices
      rw [← Bus.serve_map devices, ← Bus.serve_map devices, same]
    | peek a | takeFault => exact same

/-- A strict bus gives the first fault since one was last taken, a lenient bus has noted every
fault, and no other call has left anything with either. What was a fault is not seen again by
any peek, and in the window of the cartridge's RAM there are none. -/
theorem faults_of_calls {image : Array UInt8} {cartridge : Cartridge}
    (accepted : Cartridge.ofImage image = .ok cartridge) (strict : Bool) (calls : List BusCall) :
    let bus := (powerOn cartridge strict).afterCalls calls
    bus.takeFault.1 = (if strict then
        ((BusCall.sinceTaken calls).filterMap BusCall.fault?).head? else none) ∧
      bus.takeFault.2.takeFault.1 = none ∧
      bus.ignored.toList = (if strict then [] else calls.filterMap BusCall.fault?) ∧
      (∀ request fault, request.fault? = some fault → ∀ later a,
        ((bus.call (.access request)).afterCalls later).peek a = (bus.afterCalls later).peek a) ∧
      bus.cartridge.board.hasRam ∧
      ∀ a v, 0x6000 ≤ a ∧ a < 0x8000 →
        (bus.call (.access (.read a))).reports = bus.reports ∧
        (bus.call (.access (.write a v))).reports = bus.reports := by
  intro bus
  obtain ⟨fitted, -, fault, ignored⟩ := latched_afterCalls accepted strict calls
  refine ⟨fault, rfl, ignored, ?_, fitted.hasRam, ?_⟩
  · intro request fault found later a
    have same : (bus.call (.access request)).devices = bus.devices := by
      show (Bus.serve bus request).devices = _
      rw [serve_of_fault bus found, devices_raise]
    rw [peek_of_devices (devices_afterCalls same later)]
  · intro a v window
    have mapped : ¬ (0x4018 ≤ a ∧ a < 0x6000) := fun h => UInt16.not_lt.mpr window.1 h.2
    have writable : ¬ 0x8000 ≤ a := UInt16.not_le.mpr window.2
    exact ⟨reports_serve fitted (if_neg mapped),
      reports_serve fitted (by rw [Request.fault?, if_neg mapped, if_neg writable])⟩

theorem faults_of_calls_trained :
    let calls : List BusCall := [.access (.write 0x8000 1), .takeFault, .access (.read 0x4018),
      .peek 0x4018, .access (.write 0x6000 2), .access (.write 0xFFFF 3)]
    ((powerOn .trained true).afterCalls calls).takeFault.1 = some (.unmappedRead 0x4018) ∧
      ((powerOn .trained false).afterCalls calls).ignored.toList =
        [.romWrite 0x8000 1, .unmappedRead 0x4018, .romWrite 0xFFFF 3] := by
  intro calls
  obtain ⟨kept, -⟩ := faults_of_calls Cartridge.ofImage_trainedImage true calls
  obtain ⟨-, -, noted, -⟩ := faults_of_calls Cartridge.ofImage_trainedImage false calls
  exact ⟨kept.trans (by decide), noted.trans (by decide)⟩

end ConsoleBus
end NesMachine
