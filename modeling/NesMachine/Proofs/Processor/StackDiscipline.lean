import NesMachine.Proofs.Processor.ActionEffects

/-!
# The stack as a stack

Pushes and pulls whose pulls all match an earlier push find what was pushed, last in first out, as
long as no more than 256 bytes are held at once: the stack page then has a byte for each of them,
wherever in the page the stack pointer starts. However many are held, the stack pointer comes back
to its start with the last matching pull, and nothing outside the stack page is touched.
-/
namespace NesMachine

/-- What one push leaves on the stack. -/
inductive StackEntry where
  | byte (value : UInt8)
  | word (value : UInt16)
  deriving DecidableEq, Repr

/-- The bytes of an entry, in the order in which they are pulled. -/
def StackEntry.bytes : StackEntry → List UInt8
  | .byte value => [value]
  | .word value => [lowByte value, highByte value]

/-- The bytes of several entries, the entry on top of the stack first. -/
def StackEntry.allBytes (held : List StackEntry) : List UInt8 := held.flatMap bytes

theorem StackEntry.allBytes_cons (entry : StackEntry) (held : List StackEntry) :
    allBytes (entry :: held) = entry.bytes ++ allBytes held := List.flatMap_cons

theorem StackEntry.length_allBytes_cons (entry : StackEntry) (held : List StackEntry) :
    (allBytes (entry :: held)).length = entry.bytes.length + (allBytes held).length := by
  rw [allBytes_cons, List.length_append]

inductive StackCall where
  | push (entry : StackEntry)
  | pull
  | pullWord
  deriving DecidableEq, Repr

/-- Calls in which every pull matches an earlier push and every push is matched in the end. What is
held before the calls is listed from the top of the stack; what the pulls give back is told from
the pushes that they match. -/
inductive Nested : (held : List StackEntry) → List StackCall → (pulled : List StackEntry) → Prop where
  | done : Nested [] [] []
  | push {entry : StackEntry} {held pulled : List StackEntry} {calls : List StackCall} :
    Nested (entry :: held) calls pulled → Nested held (.push entry :: calls) pulled
  | pull {value : UInt8} {held pulled : List StackEntry} {calls : List StackCall} :
    Nested held calls pulled →
      Nested (.byte value :: held) (.pull :: calls) (.byte value :: pulled)
  | pullWord {value : UInt16} {held pulled : List StackEntry} {calls : List StackCall} :
    Nested held calls pulled →
      Nested (.word value :: held) (.pullWord :: calls) (.word value :: pulled)

/-- The number of bytes held after a call. -/
def StackCall.depth (depth : Nat) : StackCall → Nat
  | .push entry => depth + entry.bytes.length
  | .pull => depth - 1
  | .pullWord => depth - 2

/-- The greatest number of bytes that are held at once before, between and after some calls. -/
def deepest (depth : Nat) : List StackCall → Nat
  | [] => depth
  | call :: rest => max depth (deepest (call.depth depth) rest)

theorem le_deepest (depth : Nat) (calls : List StackCall) : depth ≤ deepest depth calls := by
  cases calls with
  | nil => exact Nat.le_refl depth
  | cons call rest => exact Nat.le_max_left _ _

namespace Machine

/-- What a call gives back, and the machine after it. -/
def handle (m : Machine FlatMemory) : StackCall → List StackEntry × Machine FlatMemory
  | .push (.byte value) => ([], m.push value)
  | .push (.word value) => ([], m.pushWord value)
  | .pull => ([.byte m.pull.1], m.pull.2)
  | .pullWord => ([.word m.pullWord.1], m.pullWord.2)

def handleAll (m : Machine FlatMemory) : List StackCall → List StackEntry × Machine FlatMemory
  | [] => ([], m)
  | call :: rest =>
    let (first, m) := m.handle call
    let (later, m) := m.handleAll rest
    (first ++ later, m)

/-- The second machine is the first one with the stack pointer moved and bytes of the stack page
changed. -/
structure StackMoved (m m' : Machine FlatMemory) (distance : UInt8) : Prop where
  registers : m'.cpu.registers = { m.cpu.registers with s := m.cpu.registers.s + distance }
  outside : ∀ a, highByte a ≠ 1 → m'.bus.get a = m.bus.get a

/-- The machine holds some bytes on its stack, the top of the stack first. -/
def Holds (m : Machine FlatMemory) (bytes : List UInt8) : Prop :=
  ∀ k v, bytes[k]? = some v →
    m.bus.get (stackSlot (m.cpu.registers.s + UInt8.ofNat (k + 1))) = v

section

variable {m m' m'' : Machine FlatMemory}

theorem StackMoved.trans {d d' : UInt8} (first : StackMoved m m' d) (second : StackMoved m' m'' d') :
    StackMoved m m'' (d + d') where
  registers := by rw [second.registers, first.registers, UInt8.add_assoc]
  outside a h := (second.outside a h).trans (first.outside a h)

theorem StackMoved.push (m : Machine FlatMemory) (value : UInt8) :
    StackMoved m (m.push value) (-1) := by
  rw [push_eq]
  constructor
  · rw [registers_undergo, UInt8.sub_eq_add_neg]
  · intro a h
    exact (FlatMemory.get_set _ _ _ _).trans (if_neg (ne_stackSlot h _).symm)

theorem StackMoved.pull (m : Machine FlatMemory) : StackMoved m m.pull.2 1 := by
  rw [pull_eq]
  exact ⟨rfl, fun _ _ => rfl⟩

theorem Holds.push {bytes : List UInt8} (holds : m.Holds bytes) (room : bytes.length < 256)
    (value : UInt8) : (m.push value).Holds (value :: bytes) := by
  let s := m.cpu.registers.s
  rw [push_eq]
  intro k v found
  show (m.bus.set (stackSlot s) value).get (stackSlot (s - 1 + UInt8.ofNat (k + 1))) = v
  have slot : s - 1 + UInt8.ofNat (k + 1) = s + UInt8.ofNat k := by
    rw [UInt8.ofNat_add]
    grind
  rw [slot, FlatMemory.get_set]
  cases k with
  | zero => simpa using found
  | succ k =>
    -- The slot written comes round again only after 256 bytes.
    have within : k < bytes.length :=
      Nat.lt_of_succ_lt_succ (List.getElem?_eq_some_iff.mp found).1
    have other : s ≠ s + UInt8.ofNat (k + 1) := by
      intro same
      have around : UInt8.ofNat (k + 1) = 0 := by grind
      have number : (k + 1) % 256 = 0 := congrArg UInt8.toNat around
      omega
    rw [if_neg (mt (stackSlot_inj _ _).mp other)]
    exact holds k v found

theorem Holds.pull {value : UInt8} {bytes : List UInt8} (holds : m.Holds (value :: bytes)) :
    m.pull.1 = value ∧ m.pull.2.Holds bytes := by
  rw [pull_eq]
  refine ⟨holds 0 value rfl, fun k v found => ?_⟩
  show m.bus.get (stackSlot (m.cpu.registers.s + 1 + UInt8.ofNat (k + 1))) = v
  have slot : m.cpu.registers.s + 1 + UInt8.ofNat (k + 1) =
      m.cpu.registers.s + UInt8.ofNat (k + 1 + 1) := by
    rw [UInt8.ofNat_add (k + 1) 1]
    grind
  rw [slot]
  exact holds (k + 1) v found

theorem Holds.pushWord {bytes : List UInt8} (holds : m.Holds bytes) (room : bytes.length + 1 < 256)
    (value : UInt16) : (m.pushWord value).Holds (lowByte value :: highByte value :: bytes) :=
  (holds.push (Nat.lt_of_succ_lt room) _).push room _

theorem Holds.pullWord {value : UInt16} {bytes : List UInt8}
    (holds : m.Holds (lowByte value :: highByte value :: bytes)) :
    m.pullWord.1 = value ∧ m.pullWord.2.Holds bytes := by
  obtain ⟨low, rest⟩ := holds.pull
  obtain ⟨high, rest⟩ := rest.pull
  refine ⟨?_, rest⟩
  show wordOf m.pull.1 m.pull.2.pull.1 = value
  rw [low, high, wordOf_lowByte_highByte]

/-- A push moves the stack pointer down by the bytes of its entry. -/
theorem StackMoved.pushEntry (m : Machine FlatMemory) (entry : StackEntry) :
    StackMoved m (m.handle (.push entry)).2 (-UInt8.ofNat entry.bytes.length) := by
  cases entry with
  | byte value => exact .push m value
  | word value =>
    have two : -UInt8.ofNat 2 = -1 + -1 := by decide
    show StackMoved m _ (-UInt8.ofNat 2)
    rw [two]
    exact (StackMoved.push m _).trans (.push _ _)

theorem Holds.pushEntry {bytes : List UInt8} (holds : m.Holds bytes) (entry : StackEntry)
    (room : bytes.length + entry.bytes.length ≤ 256) :
    (m.handle (.push entry)).2.Holds (entry.bytes ++ bytes) := by
  cases entry with
  | byte value => exact holds.push room value
  | word value => exact holds.pushWord room value

end

/-- When all that was held has been pulled, the stack pointer is above it. -/
theorem moved_of_nested {held pulled : List StackEntry} {calls : List StackCall}
    (nested : Nested held calls pulled) (m : Machine FlatMemory) :
    StackMoved m (m.handleAll calls).2 (UInt8.ofNat (StackEntry.allBytes held).length) := by
  induction nested generalizing m with
  | done => exact ⟨by simp [StackEntry.allBytes, handleAll], fun _ _ => rfl⟩
  | @push entry held pulled calls nested ih =>
    have back (a b : UInt8) : -a + (a + b) = b := by grind
    have both := (StackMoved.pushEntry m entry).trans (ih _)
    rw [StackEntry.length_allBytes_cons, UInt8.ofNat_add, back] at both
    exact both
  | pull nested ih =>
    rw [StackEntry.length_allBytes_cons, UInt8.ofNat_add]
    exact (StackMoved.pull m).trans (ih _)
  | pullWord nested ih =>
    rw [StackEntry.length_allBytes_cons, UInt8.ofNat_add]
    exact ((StackMoved.pull m).trans (.pull _)).trans (ih _)

/-- While no more bytes are held than the stack page has, each pull finds what it matches. -/
theorem pulled_of_nested {held pulled : List StackEntry} {calls : List StackCall}
    (nested : Nested held calls pulled) (m : Machine FlatMemory)
    (holds : m.Holds (StackEntry.allBytes held))
    (fits : deepest (StackEntry.allBytes held).length calls ≤ 256) :
    (m.handleAll calls).1 = pulled := by
  induction nested generalizing m with
  | done => rfl
  | @push entry held pulled calls nested ih =>
    have deeper : deepest ((StackEntry.allBytes held).length + entry.bytes.length) calls ≤ 256 :=
      Nat.le_trans (Nat.le_max_right _ _) fits
    have room := Nat.le_trans (le_deepest _ calls) deeper
    have given : (m.handle (.push entry)).1 = [] := by cases entry <;> rfl
    show (m.handle (.push entry)).1 ++ ((m.handle (.push entry)).2.handleAll calls).1 = pulled
    rw [given, List.nil_append]
    refine ih _ ?_ ?_
    · rw [StackEntry.allBytes_cons]
      exact holds.pushEntry entry room
    · rwa [StackEntry.length_allBytes_cons, Nat.add_comm]
  | @pull value held pulled calls nested ih =>
    obtain ⟨given, rest⟩ := holds.pull
    have later := ih _ rest (Nat.le_trans (Nat.le_max_right _ _) fits)
    show .byte m.pull.1 :: (m.pull.2.handleAll calls).1 = .byte value :: pulled
    rw [given, later]
  | @pullWord value held pulled calls nested ih =>
    obtain ⟨given, rest⟩ := holds.pullWord
    have later := ih _ rest (Nat.le_trans (Nat.le_max_right _ _) fits)
    show .word m.pullWord.1 :: (m.pullWord.2.handleAll calls).1 = .word value :: pulled
    rw [given, later]

/-- The stack is last in, first out. Calls whose pulls all match a push leave the stack pointer, and
with it all registers, as it was before, and change no byte outside the stack page; and as long as
no more than 256 bytes are held at once, each pull gives back the byte or the word of its push. -/
theorem lifo_of_nested (m : Machine FlatMemory) {calls : List StackCall}
    {pulled : List StackEntry} (nested : Nested [] calls pulled) :
    let after := (m.handleAll calls).2
    after.cpu.registers = m.cpu.registers ∧
      (∀ a, highByte a ≠ 1 → after.bus.get a = m.bus.get a) ∧
      (deepest 0 calls ≤ 256 → (m.handleAll calls).1 = pulled) := by
  intro after
  obtain ⟨registers, outside⟩ := moved_of_nested nested m
  refine ⟨?_, outside, pulled_of_nested nested m fun k v found => ?_⟩
  · refine registers.trans ?_
    show { m.cpu.registers with s := m.cpu.registers.s + 0 } = m.cpu.registers
    rw [UInt8.add_zero]
  · cases found

/-- Bytes that are pushed one after the other are pulled the other way round. -/
theorem nested_of_bytes (bytes : List UInt8) : Nested []
    (bytes.map (fun value => .push (.byte value)) ++ List.replicate bytes.length .pull)
    (bytes.reverse.map .byte) := by
  have pulls (values : List UInt8) :
      Nested (values.map .byte) (List.replicate values.length .pull) (values.map .byte) := by
    induction values with
    | nil => exact .done
    | cons value rest ih => exact .pull ih
  have pushes (held : List UInt8) : Nested (held.map .byte)
      (bytes.map (fun value => .push (.byte value)) ++
        List.replicate (bytes.reverse ++ held).length .pull)
      ((bytes.reverse ++ held).map .byte) := by
    induction bytes generalizing held with
    | nil => exact pulls held
    | cons value rest ih =>
      have inner := ih (value :: held)
      rw [← List.singleton_append, ← List.append_assoc, ← List.reverse_cons] at inner
      exact .push inner
  have all := pushes []
  rw [List.append_nil, List.length_reverse] at all
  exact all

/-- All 256 bytes, pushed from the middle of the stack page on and pulled again. -/
theorem lifo_of_nested_full :
    let m : Machine FlatMemory :=
      ⟨⟨⟨0x11, 0x22, 0x33, 0x80, 0x8000, Status.ofByte 0⟩, 7, false, none⟩, FlatMemory.zero⟩
    let bytes := (List.range 256).map UInt8.ofNat
    let calls := bytes.map (fun value => StackCall.push (.byte value)) ++ List.replicate 256 .pull
    Nested [] calls (bytes.reverse.map .byte) ∧ deepest 0 calls = 256 ∧
      (m.handleAll calls).2.cpu.registers.s = 0x80 ∧
      (m.handleAll calls).1 = bytes.reverse.map .byte := by
  intro m bytes calls
  have length : bytes.length = 256 := by simp [bytes]
  have nested : Nested [] calls (bytes.reverse.map .byte) := by
    have all := nested_of_bytes bytes
    rwa [length] at all
  have depth : deepest 0 calls = 256 := by decide +kernel
  obtain ⟨registers, -, pulled⟩ := lifo_of_nested m nested
  exact ⟨nested, depth, congrArg Registers.s registers, pulled (Nat.le_of_eq depth)⟩

end Machine
end NesMachine
