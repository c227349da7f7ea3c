import NesMachine.Proofs.Cartridge.Images

/-!
# Which images are accepted

An image is refused for the first of five reasons: it has no room for a header, is not
marked, has no program ROM, is shorter than its header promises, or asks for another board.
Every other image is accepted, and each part of its board is found where the sizes in the
header put it. What comes after the promised size does not matter.
-/
namespace NesMachine

namespace Image

/-- The image begins with the marking bytes. -/
def Marked (image : Array UInt8) : Prop := image.extract 0 4 = #[0x4E, 0x45, 0x53, 0x1A]

/-- The length that an image needs for all that its header promises. -/
def promisedSize (image : Array UInt8) : Nat :=
  16 + (if image.getD 6 0 &&& 0x04 ≠ 0 then 512 else 0) + 0x4000 * (image.getD 4 0).toNat
    + 0x2000 * (image.getD 5 0).toNat

/-- The board that an image asks for. The upper digit counts only before a clean tail. -/
def boardNumber (image : Array UInt8) : UInt8 :=
  if image.extract 12 16 = #[0, 0, 0, 0] then image.getD 6 0 >>> 4 ||| image.getD 7 0 &&& 0xF0
  else image.getD 6 0 >>> 4

/-- The header of an image can be read. -/
structure Opens (image : Array UInt8) : Prop where
  long : 16 ≤ image.size
  marked : Marked image
  banked : image.getD 4 0 ≠ 0

/-- The image is all there, for the one board that is known. -/
structure Accepted (image : Array UInt8) : Prop extends Opens image where
  full : promisedSize image ≤ image.size
  board : boardNumber image = 0

/-- Why an image is refused. -/
inductive Refused (image : Array UInt8) : CartridgeError → Prop
  | headerTooShort (short : image.size < 16) : Refused image (.headerTooShort image.size)
  | badMagic (long : 16 ≤ image.size) (unmarked : ¬ Marked image) : Refused image .badMagic
  | noPrgRom (long : 16 ≤ image.size) (marked : Marked image) (unbanked : image.getD 4 0 = 0) :
      Refused image .noPrgRom
  | truncated (opens : Opens image) (short : image.size < promisedSize image) :
      Refused image (.truncated (promisedSize image) image.size)
  | unsupportedMapper (opens : Opens image) (full : promisedSize image ≤ image.size)
      (other : boardNumber image ≠ 0) : Refused image (.unsupportedMapper (boardNumber image))

theorem accepted_or_refused (image : Array UInt8) : Accepted image ∨ ∃ e, Refused image e := by
  by_cases long : 16 ≤ image.size
  · by_cases marked : Marked image
    · by_cases unbanked : image.getD 4 0 = 0
      · exact .inr ⟨_, .noPrgRom long marked unbanked⟩
      · have opens : Opens image := ⟨long, marked, unbanked⟩
        by_cases full : promisedSize image ≤ image.size
        · by_cases board : boardNumber image = 0
          · exact .inl ⟨opens, full, board⟩
          · exact .inr ⟨_, .unsupportedMapper opens full board⟩
        · exact .inr ⟨_, .truncated opens (Nat.lt_of_not_le full)⟩
    · exact .inr ⟨_, .badMagic long marked⟩
  · exact .inr ⟨_, .headerTooShort (Nat.lt_of_not_le long)⟩

end Image

open Image

variable {image : Array UInt8}

namespace Header

theorem getD_of_long (long : 16 ≤ image.size) {i : Nat} (inside : i < 16) :
    image.getD i 0 = image[i] := dif_pos (show i < image.size by omega)

theorem extract_four (start : Nat) (long : start + 4 ≤ image.size) :
    image.extract start (start + 4) =
      #[image[start], image[start + 1], image[start + 2], image[start + 3]] := by
  apply Array.ext
  · rw [Array.size_extract]
    show min (start + 4) image.size - start = 4
    omega
  · intro i h h'
    rw [Array.getElem_extract]
    match i, h' with
    | 0, _ | 1, _ | 2, _ | 3, _ => rfl

theorem marked_iff (long : 16 ≤ image.size) :
    Marked image ↔ [image[0], image[1], image[2], image[3]] = magic := by
  rw [Marked, extract_four 0 (by omega), magic, ← Array.toList_inj]

theorem cleanTail_iff (long : 16 ≤ image.size) : image.extract 12 16 = #[0, 0, 0, 0] ↔
    [image[12], image[13], image[14], image[15]].any (· ≠ 0) = false := by
  rw [extract_four 12 (by omega)]
  simp

theorem parse_of_short (short : image.size < 16) :
    parse image = .error (.headerTooShort image.size) := by
  rw [parse, dif_pos short]

theorem parse_of_unmarked (long : 16 ≤ image.size) (unmarked : ¬ Marked image) :
    parse image = .error .badMagic := by
  rw [parse, dif_neg (Nat.not_lt.mpr long), if_pos (mt (marked_iff long).mpr unmarked)]

theorem parse_of_unbanked (long : 16 ≤ image.size) (marked : Marked image)
    (unbanked : image.getD 4 0 = 0) : parse image = .error .noPrgRom := by
  rw [getD_of_long long (by omega)] at unbanked
  rw [parse, dif_neg (Nat.not_lt.mpr long), if_neg (not_not_intro ((marked_iff long).mp marked)),
    if_pos unbanked]

theorem exists_parse (opens : Opens image) : ∃ header, parse image = .ok header ∧
    header.chrRomBanks = image.getD 5 0 ∧ header.mapper = boardNumber image := by
  obtain ⟨long, marked, banked⟩ := opens
  rw [getD_of_long long (by omega)] at banked
  rw [parse, dif_neg (Nat.not_lt.mpr long), if_neg (not_not_intro ((marked_iff long).mp marked)),
    if_neg banked]
  refine ⟨_, rfl, (getD_of_long long (by omega)).symm, ?_⟩
  rw [boardNumber, getD_of_long long (show 6 < 16 by omega),
    getD_of_long long (show 7 < 16 by omega)]
  by_cases clean : image.extract 12 16 = #[0, 0, 0, 0]
  · have dirty := (cleanTail_iff long).mp clean
    simp only [dirty, if_pos clean]
    exact UInt8.or_comm _ _
  · have dirty := mt (cleanTail_iff long).mpr clean
    simp only [dirty, if_neg clean]
    exact UInt8.zero_or

theorem opens_of_parse {header : Header} (parsed : parse image = .ok header) : Opens image := by
  by_cases long : 16 ≤ image.size
  · by_cases marked : Marked image
    · by_cases unbanked : image.getD 4 0 = 0
      · rw [parse_of_unbanked long marked unbanked] at parsed
        cases parsed
      · exact ⟨long, marked, unbanked⟩
    · rw [parse_of_unmarked long marked] at parsed
      cases parsed
  · rw [parse_of_short (Nat.lt_of_not_le long)] at parsed
    cases parsed

theorem imageSize_of_parse {header : Header} (parsed : parse image = .ok header) :
    header.imageSize = promisedSize image ∧
      header.chrRomStart = promisedSize image - 0x2000 * (image.getD 5 0).toNat := by
  obtain ⟨prgBanks, -⟩ := parse_fields parsed
  obtain ⟨header', parsed', chrBanks, -⟩ := exists_parse (opens_of_parse parsed)
  obtain rfl := Except.ok.inj (parsed.symm.trans parsed')
  unfold imageSize chrRomStart promisedSize prgRomSize chrRomSize
  rw [prgRomStart_of_parse parsed, prgBanks, chrBanks]
  omega

theorem parse_extract (long : 16 ≤ image.size) : parse (image.extract 0 16) = parse image := by
  have whole : image.extract 0 16 ++ image.extract 16 image.size = image := by
    rw [Array.extract_append_extract, Nat.zero_min, Nat.max_eq_right long, Array.extract_size]
  have full : (image.extract 0 16).size = 16 := by
    rw [Array.size_extract]
    omega
  rw [← parse_append full (image.extract 16 image.size), whole]

end Header

namespace Cartridge

theorem ofImage_of_refused {e : CartridgeError} (refused : Refused image e) :
    ofImage image = .error e := by
  cases refused with
  | headerTooShort short => rw [ofImage, Header.parse_of_short short]
  | badMagic long unmarked => rw [ofImage, Header.parse_of_unmarked long unmarked]
  | noPrgRom long marked unbanked => rw [ofImage, Header.parse_of_unbanked long marked unbanked]
  | truncated opens short =>
    obtain ⟨header, parsed, -⟩ := Header.exists_parse opens
    obtain ⟨size, -⟩ := Header.imageSize_of_parse parsed
    rw [ofImage, parsed]
    simp only [size, if_pos short]
  | unsupportedMapper opens full other =>
    obtain ⟨header, parsed, -, board⟩ := Header.exists_parse opens
    obtain ⟨size, -⟩ := Header.imageSize_of_parse parsed
    rw [ofImage, parsed]
    simp only [size, board, if_neg (Nat.not_lt.mpr full), if_pos other]

theorem exists_ofImage (accepted : Accepted image) :
    ∃ cartridge, ofImage image = .ok cartridge := by
  obtain ⟨header, parsed, -, board⟩ := Header.exists_parse accepted.toOpens
  obtain ⟨size, -⟩ := Header.imageSize_of_parse parsed
  rw [ofImage, parsed]
  simp only [size, board, if_neg (Nat.not_lt.mpr accepted.full), accepted.board, ne_eq,
    not_true_eq_false, if_false]
  exact ⟨_, rfl⟩

/-- What an image says of the board that it makes. -/
structure Describes (image : Array UInt8) (board : Nrom) : Prop where
  chrRom : board.chrRom =
    image.extract (promisedSize image - 0x2000 * (image.getD 5 0).toNat) (promisedSize image)
  rom : ∀ a, 0x8000 ≤ a → image[romIndex image a]? = some (board.peek a)
  ram : ∀ a, 0x6000 ≤ a → a < 0x8000 → board.peek a = 0
  hasRam : board.hasRam = true

theorem describes_of_ofImage {cartridge : Cartridge} (made : ofImage image = .ok cartridge) :
    Describes image cartridge.board := by
  refine ⟨?_, fun a => rom_of_ofImage made, ?_, ?_⟩
  · obtain ⟨header, parsed, -, board⟩ := board_of_ofImage made
    obtain ⟨size, start⟩ := Header.imageSize_of_parse parsed
    rw [board, ← start, ← size]
    rfl
  · exact fun a above below => peek_ram_of_ofImage made ⟨above, below⟩
  · exact Nrom.hasRam_of_filled (by rw [prgRam_of_ofImage made, Array.size_replicate])

/-- Images that are the same up to the size promised make the same cartridge. -/
theorem ofImage_congr {other : Array UInt8} (full : promisedSize image ≤ image.size)
    (same : other.extract 0 (promisedSize image) = image.extract 0 (promisedSize image)) :
    ofImage other = ofImage image := by
  have cut : (other.extract 0 (promisedSize image)).size = promisedSize image := by
    rw [same, Array.size_extract]
    omega
  have full' : promisedSize image ≤ other.size := by
    rw [Array.size_extract] at cut
    omega
  have within (start : Nat) {stop : Nat} (inside : stop ≤ promisedSize image) :
      other.extract start stop = image.extract start stop := by
    have again := congrArg (Array.extract · start stop) same
    simpa [Nat.min_eq_left inside] using again
  have header : 16 ≤ promisedSize image := by
    unfold promisedSize
    omega
  have parsed : Header.parse other = Header.parse image := by
    rw [← Header.parse_extract (Nat.le_trans header full'), within 0 header,
      Header.parse_extract (Nat.le_trans header full)]
  rw [ofImage, ofImage, parsed]
  cases read : Header.parse image with
  | error e => rfl
  | ok header =>
    obtain ⟨size, start⟩ := Header.imageSize_of_parse read
    simp only [size, if_neg (Nat.not_lt.mpr full), if_neg (Nat.not_lt.mpr full')]
    rw [within header.prgRomStart (by omega), within header.chrRomStart (Nat.le_refl _)]

/-- An image is refused for the first reason that there is and accepted if there is none; it
describes the board that it makes, and bytes after the promised size make no difference. -/
theorem outcome_of_ofImage (image : Array UInt8) :
    (∀ e, ofImage image = .error e ↔ Refused image e) ∧
    ((∃ cartridge, ofImage image = .ok cartridge) ↔ Accepted image) ∧
    (∀ cartridge, ofImage image = .ok cartridge → Describes image cartridge.board) ∧
    (promisedSize image ≤ image.size → ∀ other,
      other.extract 0 (promisedSize image) = image.extract 0 (promisedSize image) →
        ofImage other = ofImage image) := by
  refine ⟨?_, ?_, fun _ => describes_of_ofImage, fun full _ => ofImage_congr full⟩
  · intro e
    refine ⟨?_, ofImage_of_refused⟩
    intro failed
    rcases accepted_or_refused image with accepted | ⟨e', refused⟩
    · obtain ⟨cartridge, made⟩ := exists_ofImage accepted
      rw [made] at failed
      cases failed
    · rw [ofImage_of_refused refused] at failed
      obtain rfl := Except.error.inj failed
      exact refused
  · refine ⟨?_, exists_ofImage⟩
    rintro ⟨cartridge, made⟩
    rcases accepted_or_refused image with accepted | ⟨e, refused⟩
    · exact accepted
    · rw [ofImage_of_refused refused] at made
      cases made

theorem outcome_of_ofImage_trainedImage :
    Accepted trainedImage ∧ Describes trainedImage trained.board ∧
      ofImage (trainedImage ++ #[0xFF]) = .ok trained := by
  obtain ⟨-, accepts, describes, congr⟩ := outcome_of_ofImage trainedImage
  have accepted := accepts.mp ⟨trained, ofImage_trainedImage⟩
  refine ⟨accepted, describes trained ofImage_trainedImage, ?_⟩
  rw [congr accepted.full, ofImage_trainedImage]
  rw [Array.extract_append, Nat.sub_eq_zero_of_le accepted.full, Array.extract_zero,
    Array.append_empty]

end Cartridge
end NesMachine
