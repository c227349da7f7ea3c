import NesMachine.Cartridge.Basic

/-!
# Boards made from images

An image that is accepted makes a board with a full window of zeros for RAM. Its ROM is the
part of the image that the sizes in the header cut out, and is there in full.
-/
namespace NesMachine

namespace Header

private theorem one_le_max (banks : UInt8) : 1 ≤ max banks 1 := by
  show 1 ≤ if banks ≤ 1 then 1 else banks
  grind

theorem parse_fields {image : Array UInt8} {header : Header} (h : parse image = .ok header) :
    header.prgRomBanks = image.getD 4 0 ∧ header.prgRomBanks ≠ 0 ∧
      header.trainer = decide (image.getD 6 0 &&& 0x04 ≠ 0) ∧ 1 ≤ header.prgRamBanks := by
  unfold parse at h
  split at h
  · cases h
  · next long =>
    have room : 16 ≤ image.size := by omega
    split at h
    · cases h
    · split at h
      · cases h
      · next banks =>
        obtain rfl := Except.ok.inj h
        have fourth : image.getD 4 0 = image[4] := dif_pos (show 4 < image.size by omega)
        have sixth : image.getD 6 0 = image[6] := dif_pos (show 6 < image.size by omega)
        refine ⟨fourth.symm, banks, ?_, ?_⟩
        · rw [sixth]
        · exact one_le_max image[8]

theorem prgRomStart_of_parse {image : Array UInt8} {header : Header}
    (parsed : parse image = .ok header) :
    header.prgRomStart = 16 + if image.getD 6 0 &&& 0x04 ≠ 0 then 512 else 0 := by
  obtain ⟨-, -, trainer, -⟩ := parse_fields parsed
  simp [prgRomStart, trainer, size, trainerSize]

/-- The header is in the first sixteen bytes of an image. -/
theorem parse_append {header : Array UInt8} (full : header.size = 16) (rest : Array UInt8) :
    parse (header ++ rest) = parse header := by
  have long : ¬ (header ++ rest).size < 16 := by
    rw [Array.size_append]
    omega
  rw [parse, dif_neg long, parse, dif_neg (by omega)]
  simp (disch := omega) only [Array.getElem_append_left]

end Header

namespace Nrom

theorem hasRam_of_filled {board : Nrom} (filled : board.prgRam.size = 0x2000) : board.hasRam := by
  rw [hasRam, Bool.not_eq_true', Array.isEmpty_eq_false_iff, ← Array.size_pos_iff]
  omega

theorem peek_of_ram (board : Nrom) {a : UInt16} (window : 0x6000 ≤ a ∧ a < 0x8000) :
    board.peek a = byteAt board.prgRam (a.toNat - 0x6000) := by
  rw [peek, if_neg (UInt16.not_lt.mpr window.1), if_pos window.2]

theorem peek_of_rom (board : Nrom) {a : UInt16} (rom : 0x8000 ≤ a) :
    board.peek a = byteAt board.prgRom (a.toNat - 0x8000) := by
  have above : ¬ a < 0x8000 := UInt16.not_lt.mpr rom
  have far : ¬ a < 0x6000 := UInt16.not_lt.mpr (UInt16.le_trans (by decide) rom)
  rw [peek, if_neg far, if_neg above]

end Nrom

namespace Cartridge

theorem board_of_ofImage {image : Array UInt8} {cartridge : Cartridge}
    (accepted : ofImage image = .ok cartridge) :
    ∃ header, Header.parse image = .ok header ∧ header.imageSize ≤ image.size ∧
      cartridge.board = .fitted (image.extract header.prgRomStart header.chrRomStart)
        (image.extract header.chrRomStart header.imageSize) header.prgRamSize header.mirroring := by
  unfold ofImage at accepted
  split at accepted
  · cases accepted
  · next header parsed =>
    split at accepted
    · cases accepted
    · next long =>
      split at accepted
      · cases accepted
      · obtain rfl := Except.ok.inj accepted
        exact ⟨header, parsed, Nat.le_of_not_lt long, rfl⟩

theorem prgRam_of_ofImage {image : Array UInt8} {cartridge : Cartridge}
    (accepted : ofImage image = .ok cartridge) :
    cartridge.board.prgRam = Array.replicate 0x2000 0 := by
  obtain ⟨header, parsed, -, board⟩ := board_of_ofImage accepted
  obtain ⟨-, -, -, banks⟩ := Header.parse_fields parsed
  have enough : 1 ≤ header.prgRamBanks.toNat := UInt8.le_iff_toNat_le.mp banks
  have full : min header.prgRamSize 0x2000 = 0x2000 := by
    unfold Header.prgRamSize
    omega
  rw [board, Nrom.fitted, full]

theorem peek_ram_of_ofImage {image : Array UInt8} {cartridge : Cartridge}
    (accepted : ofImage image = .ok cartridge) {a : UInt16} (window : 0x6000 ≤ a ∧ a < 0x8000) :
    cartridge.board.peek a = 0 := by
  have zeros (i : Nat) : (Array.replicate 0x2000 (0 : UInt8)).getD i 0 = 0 := by
    rw [Array.getD_eq_getD_getElem?, Array.getElem?_replicate]
    split <;> rfl
  rw [Nrom.peek_of_ram _ window, Nrom.byteAt, prgRam_of_ofImage accepted, zeros]

/-- Where the byte that answers at an address in ROM lies in an image. -/
def romIndex (image : Array UInt8) (address : UInt16) : Nat :=
  16 + (if image.getD 6 0 &&& 0x04 ≠ 0 then 512 else 0)
    + (address.toNat - 0x8000) % (0x4000 * (image.getD 4 0).toNat)

theorem rom_of_ofImage {image : Array UInt8} {cartridge : Cartridge}
    (accepted : ofImage image = .ok cartridge) {a : UInt16} (rom : 0x8000 ≤ a) :
    image[romIndex image a]? = some (cartridge.board.peek a) := by
  obtain ⟨header, parsed, long, board⟩ := board_of_ofImage accepted
  obtain ⟨banks, nonzero, -, -⟩ := Header.parse_fields parsed
  have positive : 0 < header.prgRomBanks.toNat := by
    rw [Nat.pos_iff_ne_zero]
    intro none
    exact nonzero (UInt8.toNat_inj.mp none)
  have size : cartridge.board.prgRom.size = 0x4000 * header.prgRomBanks.toNat := by
    unfold Header.imageSize at long
    rw [board, Nrom.fitted, Array.size_extract, Header.chrRomStart, Header.prgRomSize] at *
    omega
  have inside : (a.toNat - 0x8000) % (0x4000 * header.prgRomBanks.toNat) <
      0x4000 * header.prgRomBanks.toNat := Nat.mod_lt _ (by omega)
  rw [Nrom.peek_of_rom _ rom, Nrom.byteAt, size, romIndex, ← banks,
    ← Header.prgRomStart_of_parse parsed]
  rw [board, Nrom.fitted] at size ⊢
  have cut := size
  rw [Array.size_extract] at cut
  rw [Array.getD, dif_pos (by omega)]
  exact Array.getElem?_eq_some_iff.mpr ⟨by omega, (Array.getElem_extract _).symm⟩

def imageHeader : Array UInt8 := #[0x4E, 0x45, 0x53, 0x1A, 1, 0, 0x04, 0, 0, 0, 0, 0, 0, 0, 0, 0]

/-- An image with a trainer and one bank of no-operations, which starts at `$8000`. -/
def trainedImage : Array UInt8 :=
  imageHeader ++ (Array.replicate 512 0x11 ++
    (Array.replicate 0x3FFC 0xEA ++ #[0x00, 0x80, 0xEA, 0xEA]))

theorem size_imageHeader : imageHeader.size = 16 := rfl

theorem romIndex_trainedImage (a : UInt16) :
    romIndex trainedImage a = 528 + (a.toNat - 0x8000) % 0x4000 := by
  have lead (i : Nat) (h : i < 16) : trainedImage.getD i 0 = imageHeader.getD i 0 := by
    rw [Array.getD_eq_getD_getElem?, Array.getD_eq_getD_getElem?, trainedImage,
      Array.getElem?_append_left h]
  have banks : imageHeader.getD 4 0 = 1 := rfl
  have flags : imageHeader.getD 6 0 = 4 := rfl
  rw [romIndex, lead 4 (by omega), lead 6 (by omega), banks, flags]
  rfl

theorem getElem?_trainedImage {i : Nat} (h : i < 0x4000) : trainedImage[528 + i]? =
    (Array.replicate 0x3FFC 0xEA ++ #[0x00, 0x80, 0xEA, 0xEA])[i]? := by
  have past : 528 + i - 16 - 512 = i := by omega
  rw [trainedImage, Array.getElem?_append_right (by rw [size_imageHeader]; omega),
    Array.getElem?_append_right (by rw [size_imageHeader, Array.size_replicate]; omega),
    size_imageHeader, Array.size_replicate, past]

theorem size_trainedImage : trainedImage.size = 16912 := by
  simp only [trainedImage, Array.size_append, Array.size_replicate]
  rfl

/-- The cartridge of that image. -/
def trained : Cartridge where
  header := {
    prgRomBanks := 1, chrRomBanks := 0, mapper := 0, mirroring := .horizontal, battery := false,
    trainer := true, prgRamBanks := 1, dirtyTail := false }
  board := .fitted (trainedImage.extract 528 16912) (trainedImage.extract 16912 16912) 0x2000
    .horizontal

theorem ofImage_trainedImage : ofImage trainedImage = .ok trained := by
  have parsed : Header.parse trainedImage = .ok trained.header := by
    rw [trainedImage, Header.parse_append rfl]
    rfl
  have long : ¬ trainedImage.size < 16912 := by rw [size_trainedImage]; omega
  rw [ofImage, parsed]
  dsimp only
  rw [if_neg (by exact long), if_neg (by decide)]
  rfl

theorem exists_ofImage_trainedImage : ∃ cartridge, ofImage trainedImage = .ok cartridge :=
  ⟨trained, ofImage_trainedImage⟩

end Cartridge
end NesMachine
