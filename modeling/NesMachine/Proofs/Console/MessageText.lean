import NesMachine.Proofs.Console.AddressTable
import NesMachine.Proofs.Processor.DisassemblyLockstep
import NesMachine.Proofs.Text.LossyDecoding

/-!
# Messages in memory

A message goes up to the first zero byte, or to its greatest size, and is shown as the lossy
decoding of its bytes. Text that fits is therefore shown as it was written, whatever was in
memory before.
-/
namespace NesMachine.Console

/-- The bytes at successive addresses, wrapping at the top of the address space. -/
def bytesFrom (c : Console) (a : UInt16) (count : Nat) : List UInt8 :=
  (List.range count).map fun i => c.peek (a + .ofNat i)

section Bytes

variable {c : Console} {a : UInt16} {count : Nat}

theorem length_bytesFrom : (c.bytesFrom a count).length = count := by
  rw [bytesFrom, List.length_map, List.length_range]

theorem getElem_bytesFrom {i : Nat} {inside : i < (c.bytesFrom a count).length} :
    (c.bytesFrom a count)[i] = c.peek (a + .ofNat i) := by
  simp only [bytesFrom, List.getElem_map, List.getElem_range]

theorem take_bytesFrom {size : Nat} (within : size ≤ count) :
    (c.bytesFrom a count).take size = c.bytesFrom a size := by
  rw [bytesFrom, bytesFrom, ← List.map_take, List.take_range, Nat.min_eq_left within]

end Bytes

/-- A message has this many bytes. -/
structure MessageSize (c : Console) (a : UInt16) (size : Nat) : Prop where
  within : size ≤ 4096
  nonzero : ∀ i < size, c.peek (a + .ofNat i) ≠ 0
  ended : size < 4096 → c.peek (a + .ofNat size) = 0

theorem MessageSize.unique {c : Console} {a : UInt16} {size size' : Nat}
    (message : MessageSize c a size) (message' : MessageSize c a size') : size = size' := by
  have no_less {size size' : Nat} (message : MessageSize c a size)
      (message' : MessageSize c a size') : ¬ size < size' := fun less =>
    message'.nonzero size less (message.ended (Nat.lt_of_lt_of_le less message'.within))
  exact Nat.le_antisymm (Nat.le_of_not_lt (no_less message' message))
    (Nat.le_of_not_lt (no_less message message'))

theorem exists_takeWhile_bytesFrom (c : Console) (a : UInt16) (count : Nat) : ∃ size ≤ count,
    (∀ i < size, c.peek (a + .ofNat i) ≠ 0) ∧ (size < count → c.peek (a + .ofNat size) = 0) ∧
      (c.bytesFrom a count).takeWhile (· ≠ 0) = c.bytesFrom a size := by
  let zero := fun byte : UInt8 => !decide (byte ≠ 0)
  have length : (c.bytesFrom a count).length = count := length_bytesFrom
  have within : (c.bytesFrom a count).findIdx zero ≤ count :=
    Nat.le_trans List.findIdx_le_length (Nat.le_of_eq length)
  refine ⟨(c.bytesFrom a count).findIdx zero, within, ?_, ?_, ?_⟩
  · intro i small
    have kept := List.not_of_lt_findIdx small
    rw [getElem_bytesFrom] at kept
    simpa [zero] using kept
  · intro less
    have found := List.findIdx_getElem (w := Nat.lt_of_lt_of_eq less length.symm)
    rw [getElem_bytesFrom] at found
    simpa [zero] using found
  · rw [List.takeWhile_eq_take_findIdx_not, take_bytesFrom within]

/-- A message ends, even if no byte of memory is zero. -/
theorem exists_messageSize (c : Console) (a : UInt16) : ∃ size, MessageSize c a size ∧
    c.textAt a = Text.decodeUtf8 (c.bytesFrom a size) := by
  obtain ⟨size, within, nonzero, ended, bytes⟩ := c.exists_takeWhile_bytesFrom a maxStringSize
  have peeked : Bus.peekMany c.machine.bus a maxStringSize = c.bytesFrom a maxStringSize :=
    Bus.peekMany_eq_map c.machine.bus a maxStringSize
  refine ⟨size, ⟨within, nonzero, ended⟩, ?_⟩
  rw [textAt, peeked, bytes]

section Load

variable {rom : Array UInt8} {c : Console}

theorem peek_write (fitted : c.core.bus.Fitted rom) {a : UInt16} (b : UInt16) (v : UInt8)
    (window : 0x6000 ≤ a ∧ a < 0x8000) :
    (c.write b v).peek a = if b = a then v else c.peek a :=
  ConsoleBus.peek_write_cartridgeRam c.machine.bus b v fitted window

/-- Bytes that are written into the window of the board's RAM stand there in order. -/
theorem peek_load (fitted : c.core.bus.Fitted rom) {a b : UInt16} {bytes : List UInt8}
    (inside : a.toNat + bytes.length ≤ 0x8000) (window : 0x6000 ≤ b ∧ b < 0x8000) :
    (c.load a bytes).peek b =
      if a ≤ b then bytes.getD (b.toNat - a.toNat) (c.peek b) else c.peek b := by
  induction bytes generalizing c a with
  | nil =>
    show c.peek b = _
    simp
  | cons byte rest ih =>
    rw [List.length_cons] at inside
    have next : (a + 1).toNat = a.toNat + 1 := by
      rw [UInt16.toNat_add]
      exact Nat.mod_eq_of_lt (show a.toNat + 1 < 65536 by omega)
    have fitted' : (c.write a byte).core.bus.Fitted rom := keeps_obey fitted (.write a byte)
    show ((c.write a byte).load (a + 1) rest).peek b = _
    rw [ih fitted' (by omega), peek_write fitted a byte window]
    simp only [UInt16.le_iff_toNat_le, ← UInt16.toNat_inj, next]
    rcases Nat.lt_trichotomy a.toNat b.toNat with below | here | above
    · have index : b.toNat - a.toNat = b.toNat - (a.toNat + 1) + 1 := by omega
      rw [if_neg (Nat.ne_of_lt below), if_pos (Nat.succ_le_of_lt below),
        if_pos (Nat.le_of_lt below), index, List.getD_cons_succ]
    · rw [if_neg (by omega), if_pos here, if_pos (by omega), here, Nat.sub_self,
        List.getD_cons_zero]
    · rw [if_neg (by omega), if_neg (by omega), if_neg (by omega)]

theorem peek_load_offset (fitted : c.core.bus.Fitted rom) {a : UInt16} {bytes : List UInt8}
    (above : 0x6000 ≤ a) (inside : a.toNat + bytes.length ≤ 0x8000) {i : Nat}
    (small : i < bytes.length) : (c.load a bytes).peek (a + .ofNat i) = bytes[i] := by
  have place : (a + .ofNat i).toNat = a.toNat + i := by
    rw [UInt16.toNat_add, UInt16.toNat_ofNat', Nat.mod_eq_of_lt (by omega : i < 2 ^ 16),
      Nat.mod_eq_of_lt (by omega)]
  have window : 0x6000 ≤ a + .ofNat i ∧ a + .ofNat i < 0x8000 := by
    rw [UInt16.le_iff_toNat_le] at above ⊢
    rw [UInt16.lt_iff_toNat_lt, place]
    exact ⟨Nat.le_add_right_of_le above, show a.toNat + i < 32768 by omega⟩
  have after : a ≤ a + .ofNat i := by
    rw [UInt16.le_iff_toNat_le, place]
    omega
  rw [peek_load fitted inside window, if_pos after, place, Nat.add_sub_cancel_left,
    List.getD_eq_getElem?_getD, List.getElem?_eq_getElem small, Option.getD_some]

/-- A text with a zero byte behind it is the message there. -/
theorem textAt_load (fitted : c.core.bus.Fitted rom) {a : UInt16} {s : String}
    (nonzero : 0 ∉ s.toUTF8.data.toList) (short : s.toUTF8.data.toList.length ≤ 4096)
    (above : 0x6000 ≤ a) (below : a.toNat + s.toUTF8.data.toList.length < 0x8000) :
    (c.load a (s.toUTF8.data.toList ++ [0])).textAt a = s := by
  have encoding : s.toUTF8.data.toList = s.toList.flatMap String.utf8EncodeChar := by
    rw [String.toUTF8_eq_toByteArray, ← String.utf8Encode_toList, List.utf8Encode,
      List.toList_data_toByteArray]
  generalize s.toUTF8.data.toList = bytes at *
  have inside : a.toNat + (bytes ++ [0]).length ≤ 0x8000 := by
    rw [List.length_append, List.length_singleton]
    omega
  have shown {i : Nat} (small : i < bytes.length) :
      (c.load a (bytes ++ [0])).peek (a + .ofNat i) = bytes[i] := by
    rw [peek_load_offset fitted above inside (by rw [List.length_append]; omega),
      List.getElem_append_left small]
  have size : MessageSize (c.load a (bytes ++ [0])) a bytes.length := by
    refine ⟨short, fun i small zero => nonzero ?_, fun _ => ?_⟩
    · rw [← zero, shown small]
      exact List.getElem_mem small
    · rw [peek_load_offset fitted above inside (by simp), List.getElem_concat_length rfl]
  obtain ⟨size', message, text⟩ := exists_messageSize (c.load a (bytes ++ [0])) a
  have bytesThere : (c.load a (bytes ++ [0])).bytesFrom a bytes.length = bytes := by
    refine List.ext_getElem length_bytesFrom fun i _ small => ?_
    rw [getElem_bytesFrom, shown small]
  rw [text, ← size.unique message, bytesThere, encoding, Text.decodeUtf8_utf8EncodeChar]

end Load

/-- The text at an address is the lossy decoding of its bytes up to the first zero byte, or of
4096 bytes. So text that is written with a zero byte behind it is read back. -/
theorem text_of_bytes :
    (∀ (c : Console) (a : UInt16), ∃ size, MessageSize c a size ∧
      ∀ text, Text.Lossy (c.bytesFrom a size) text ↔ text = (c.textAt a).toList) ∧
    ∀ settings c, powerOn settings = .ok c → ∀ commands (a : UInt16) (s : String),
      let bytes := s.toUTF8.data.toList
      0 ∉ bytes → bytes.length ≤ 4096 → 0x6000 ≤ a → a.toNat + bytes.length < 0x8000 →
      ((c.after commands).load a (bytes ++ [0])).textAt a = s := by
  constructor
  · intro c a
    obtain ⟨size, message, text⟩ := c.exists_messageSize a
    refine ⟨size, message, fun decoded => ?_⟩
    rw [text]
    exact Text.lossy_iff
  · intro settings c on commands a s bytes nonzero short above below
    obtain ⟨cartridge, accepted, rfl⟩ := ofImage_of_powerOn on
    have fitted := keeps_after (fitted_switchedOn accepted) commands
    exact textAt_load fitted nonzero short above below

theorem text_of_bytes_accented : ∃ settings c, powerOn settings = .ok c ∧
    ((c.after [.write 0x7FFA 0x21, .write 0x7FFE 0xC3]).load 0x7FFA
      ("naïf".toUTF8.data.toList ++ [0])).textAt 0x7FFA = "naïf" := by
  obtain ⟨cartridge, accepted⟩ := Cartridge.exists_ofImage_trainedImage
  have on : powerOn (.ofImage Cartridge.trainedImage) = .ok (switchedOn _ cartridge) :=
    powerOn_of_ofImage accepted
  exact ⟨_, _, on, text_of_bytes.2 _ _ on _ 0x7FFA "naïf" (by decide) (by decide) (by decide)
    (by decide)⟩

end NesMachine.Console
