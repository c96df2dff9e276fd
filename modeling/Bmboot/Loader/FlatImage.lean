import Bmboot.System.Refusal
import Mathlib.Data.List.GetD

/-!
# The verdict on a flat image

`loadAndStartPayload` copies the image to the beginning of the payload area and
leaves the rest of the memory as it is.  `validatePayload` reads the image for
the checksum, and 32 bytes for the header whatever the size of the image.
-/

namespace Bmboot

/-! ## Loading and validating -/

/-- An image that `loadAndStartPayload` does not refuse. -/
structure FlatImage where
  domain : DomainIndex
  image : List UInt8
  crc : BitVec 32
  argument : BitVec 64
  nonempty : image ≠ []
  length_le : image.length ≤ payloadAreaSize

namespace FlatImage

def load (f : FlatImage) : Load :=
  flatLoad f.domain f.image f.crc f.argument

/-- The response when the image is loaded into that memory. -/
def verdict (f : FlatImage) (mem : BitVec 64 → UInt8) : Response :=
  validatePayload (applyStores mem f.load.stores) f.load.args.entryAddress
    f.load.args.payloadSize f.load.args.payloadCrc

/-- The CRC-32 is right, the image has a complete header, and the header is
acceptable. -/
structure Valid (f : FlatImage) : Prop where
  crc : Crc.crc32 f.image = f.crc
  length : payloadImageHeaderSize ≤ f.image.length
  magic : readWord32 f.image 8 = abiMagicNumber
  major : (f.image.getD 12 0).toNat = abiMajor
  minor : (f.image.getD 13 0).toNat ≤ abiMinor

/-- The verdict depends on nothing but the image, and says whether it is
valid. -/
structure Determined (f : FlatImage) : Prop where
  same : ∀ mem mem', f.verdict mem = f.verdict mem'
  crcOk : ∀ mem, f.verdict mem = .crcOk ↔ f.Valid

end FlatImage

/-- What the header may have at an offset. -/
def HeaderByteOk : ℕ → UInt8 → Prop
  | 8, b => b = 0x42
  | 9, b => b = 0x6d
  | 10, b => b = 0x62
  | 11, b => b = 0x6f
  | 12, b => b.toNat = abiMajor
  | 13, b => b.toNat ≤ abiMinor
  | _, _ => True

/-- The image is no header yet, and some bytes behind it make it one. -/
def FlatImage.OpenHeader (f : FlatImage) : Prop :=
  f.image.length < payloadImageHeaderSize ∧
    ∀ i < f.image.length, HeaderByteOk i (f.image.getD i 0)

/-! ## The header -/

theorem bounds_of_not_headerByteOk
    {i : ℕ} {b : UInt8} (h : ¬HeaderByteOk i b) : 8 ≤ i ∧ i < 14 := by
  unfold HeaderByteOk at h
  split at h
  · omega
  · omega
  · omega
  · omega
  · omega
  · omega
  · exact absurd trivial h

theorem append_eq_append_iff {v w : ℕ} {a a' : BitVec v} {b b' : BitVec w} :
    a ++ b = a' ++ b' ↔ a = a' ∧ b = b' := by
  constructor
  · intro h
    have hleft := congrArg (BitVec.extractLsb' w v) h
    have hright := congrArg (BitVec.extractLsb' 0 w) h
    rw [BitVec.extractLsb'_append_eq_left, BitVec.extractLsb'_append_eq_left]
      at hleft
    rw [BitVec.extractLsb'_append_eq_right, BitVec.extractLsb'_append_eq_right]
      at hright
    exact ⟨hleft, hright⟩
  · rintro ⟨rfl, rfl⟩
    rfl

section Header

variable {hdr hdr' : List UInt8}

theorem readWord32_eq_magic_iff :
    readWord32 hdr 8 = abiMagicNumber ↔
      ∀ i, 8 ≤ i → i < 12 → HeaderByteOk i (hdr.getD i 0) := by
  have hmagic : abiMagicNumber = (0x6f : UInt8).toBitVec ++
      (0x62 : UInt8).toBitVec ++ (0x6d : UInt8).toBitVec ++
        (0x42 : UInt8).toBitVec := by decide
  rw [hmagic, readWord32, append_eq_append_iff, append_eq_append_iff,
    append_eq_append_iff]
  simp only [UInt8.toBitVec_inj]
  constructor
  · rintro ⟨⟨⟨h11, h10⟩, h9⟩, h8⟩ i hlow hhigh
    obtain rfl | rfl | rfl | rfl : i = 8 ∨ i = 9 ∨ i = 10 ∨ i = 11 := by omega
    · exact h8
    · exact h9
    · exact h10
    · exact h11
  · intro h
    have h8 := h 8 (by decide) (by decide)
    have h9 := h 9 (by decide) (by decide)
    have h10 := h 10 (by decide) (by decide)
    have h11 := h 11 (by decide) (by decide)
    exact ⟨⟨⟨h11, h10⟩, h9⟩, h8⟩

theorem checkHeader_eq_crcOk_iff :
    checkHeader hdr = .crcOk ↔ readWord32 hdr 8 = abiMagicNumber ∧
      (hdr.getD 12 0).toNat = abiMajor ∧ (hdr.getD 13 0).toNat ≤ abiMinor := by
  rw [checkHeader]
  by_cases hmagic : readWord32 hdr 8 = abiMagicNumber
  · rw [if_neg (not_not_intro hmagic)]
    by_cases habi : (hdr.getD 12 0).toNat ≠ abiMajor ∨
        (hdr.getD 13 0).toNat > abiMinor
    · rw [if_pos habi]
      refine iff_of_false nofun ?_
      rintro ⟨-, hmajor, hminor⟩
      exact habi.elim (fun h => h hmajor) (fun h => Nat.not_lt.mpr hminor h)
    · rw [if_neg habi]
      obtain ⟨hmajor, hminor⟩ := not_or.mp habi
      exact iff_of_true rfl ⟨hmagic, not_not.mp hmajor, Nat.not_lt.mp hminor⟩
  · rw [if_pos hmagic]
    exact iff_of_false nofun fun h => hmagic h.1

/-- A header is accepted byte by byte. -/
theorem checkHeader_eq_crcOk_iff_bytes :
    checkHeader hdr = .crcOk ↔ ∀ i, HeaderByteOk i (hdr.getD i 0) := by
  rw [checkHeader_eq_crcOk_iff, readWord32_eq_magic_iff]
  constructor
  · rintro ⟨hmagic, hmajor, hminor⟩ i
    by_cases hmagicByte : 8 ≤ i ∧ i < 12
    · exact hmagic i hmagicByte.1 hmagicByte.2
    · unfold HeaderByteOk
      split
      · omega
      · omega
      · omega
      · omega
      · exact hmajor
      · exact hminor
      · trivial
  · intro h
    exact ⟨fun i _ _ => h i, h 12, h 13⟩

/-- Two headers that agree on the magic number and are both turned down get the
same response. -/
theorem checkHeader_eq_of_refused
    (hmagic : readWord32 hdr 8 = abiMagicNumber ↔
      readWord32 hdr' 8 = abiMagicNumber)
    (h : checkHeader hdr ≠ .crcOk) (h' : checkHeader hdr' ≠ .crcOk) :
    checkHeader hdr = checkHeader hdr' := by
  rw [checkHeader] at h h' ⊢
  rw [checkHeader]
  by_cases hright : readWord32 hdr 8 = abiMagicNumber
  · rw [if_neg (not_not_intro hright)] at h ⊢
    rw [if_neg (not_not_intro (hmagic.mp hright))] at h' ⊢
    split at h
    next habi =>
      split at h'
      next habi' => rw [if_pos habi, if_pos habi']
      · exact absurd rfl h'
    · exact absurd rfl h
  · rw [if_pos hright, if_pos (fun h => hright (hmagic.mpr h))]

end Header

/-! ## The memory after the load -/

section Memory

variable (mem : BitVec 64 → UInt8)

theorem applyStores_of_mem
    {stores : List (BitVec 64 × UInt8)} {p : BitVec 64 × UInt8}
    (hdistinct : stores.Pairwise (·.1 ≠ ·.1)) (hp : p ∈ stores) :
    applyStores mem stores p.1 = p.2 := by
  induction stores generalizing mem with
  | nil => cases hp
  | cons q rest ih =>
      obtain ⟨hq, hrest⟩ := List.pairwise_cons.mp hdistinct
      rw [applyStores_cons]
      rcases List.mem_cons.mp hp with rfl | hp
      · rw [applyStores_of_not_mem _ _ fun q' hq' => (hq q' hq').symm,
          Function.update_self]
      · exact ih _ hrest hp

theorem ofNat_add_inj (address : BitVec 64) {i j : ℕ} (hi : i < 2 ^ 64)
    (hj : j < 2 ^ 64) :
    address + BitVec.ofNat 64 i = address + BitVec.ofNat 64 j ↔ i = j := by
  rw [BitVec.add_right_inj]
  constructor
  · intro h
    have hnat := congrArg BitVec.toNat h
    rwa [BitVec.toNat_ofNat, BitVec.toNat_ofNat, Nat.mod_eq_of_lt hi,
      Nat.mod_eq_of_lt hj] at hnat
  · rintro rfl
    rfl

/-- The image, and the old memory behind it. -/
theorem applyStores_imageStores
    {image : List UInt8} (address : BitVec 64)
    (hlength : image.length ≤ 2 ^ 64) {i : ℕ} (hi : i < 2 ^ 64) :
    applyStores mem (imageStores address image)
        (address + BitVec.ofNat 64 i) =
      image.getD i (mem (address + BitVec.ofNat 64 i)) := by
  by_cases hin : i < image.length
  · have hdistinct : (imageStores address image).Pairwise (·.1 ≠ ·.1) := by
      rw [List.pairwise_iff_getElem]
      intro j k hj hk hlt heq
      simp only [imageStores, List.length_mapIdx, List.getElem_mapIdx] at hj hk heq
      have hjk := (ofNat_add_inj address (by omega) (by omega)).mp heq
      omega
    have hstored : (address + BitVec.ofNat 64 i, image[i]) ∈
        imageStores address image :=
      List.mem_mapIdx.mpr ⟨i, hin, rfl⟩
    rw [List.getD_eq_getElem _ _ hin]
    exact applyStores_of_mem mem hdistinct hstored
  · rw [List.getD_eq_default _ _ (Nat.not_lt.mp hin)]
    apply applyStores_of_not_mem
    intro p hp heq
    obtain ⟨j, hj, rfl⟩ := List.mem_mapIdx.mp hp
    have hji := (ofNat_add_inj address (by omega) hi).mp heq
    omega

end Memory

/-! ## The verdict -/

namespace FlatImage

variable (f : FlatImage) (mem : BitVec 64 → UInt8)

/-- The header that the monitor sees. -/
def header : List UInt8 :=
  readBytes (applyStores mem f.load.stores) (payloadAddress f.domain)
    payloadImageHeaderSize

theorem length_lt : f.image.length < 2 ^ 64 := by
  have hle := f.length_le
  rw [payloadAreaSize] at hle
  omega

/-- The bytes of the image, and the old memory behind it. -/
theorem header_getD {i : ℕ} (hi : i < payloadImageHeaderSize) :
    (f.header mem).getD i 0 =
      f.image.getD i (mem (payloadAddress f.domain + BitVec.ofNat 64 i)) := by
  have hwide : i < 2 ^ 64 := by
    rw [payloadImageHeaderSize] at hi
    omega
  rw [← applyStores_imageStores mem (payloadAddress f.domain)
    f.length_lt.le hwide]
  simp only [header, readBytes, load, flatLoad, List.getD_eq_getElem?_getD,
    List.getElem?_map, List.getElem?_range hi, Option.map_some,
    Option.getD_some]

theorem header_getD_of_lt {i : ℕ} (hi : i < payloadImageHeaderSize)
    (hin : i < f.image.length) :
    (f.header mem).getD i 0 = f.image.getD i 0 := by
  rw [header_getD f mem hi, List.getD_eq_getElem _ _ hin,
    List.getD_eq_getElem _ _ hin]

/-- The checksum is that of the image; the header is what the monitor sees. -/
theorem verdict_eq :
    f.verdict mem =
      if Crc.crc32 f.image ≠ f.crc then .crcMismatched
      else checkHeader (f.header mem) := by
  have hsize : (BitVec.ofNat 64 f.image.length).toNat = f.image.length := by
    rw [BitVec.toNat_ofNat, Nat.mod_eq_of_lt f.length_lt]
  have himage : readBytes (applyStores mem f.load.stores)
      (payloadAddress f.domain) f.image.length = f.image := by
    apply List.ext_getElem
    · simp [readBytes]
    · intro i _ hi
      have hwide := f.length_lt
      simp only [readBytes, List.getElem_map, List.getElem_range, load, flatLoad]
      rw [applyStores_imageStores mem _ hwide.le (by omega),
        List.getD_eq_getElem _ _ hi]
  change (if crc32 0 (readBytes (applyStores mem f.load.stores)
    (payloadAddress f.domain) (BitVec.ofNat 64 f.image.length).toNat) ≠ f.crc
      then _ else _) = _
  rw [hsize, himage, crc32_eq]
  rfl

theorem determined_of_crc (h : Crc.crc32 f.image ≠ f.crc) : f.Determined := by
  constructor
  · intro mem mem'
    rw [verdict_eq, verdict_eq, if_pos h, if_pos h]
  · intro mem
    rw [verdict_eq, if_pos h]
    exact iff_of_false nofun fun hvalid => h hvalid.crc

/-- An image with a complete header is validated by its own bytes. -/
theorem determined_of_length (h : payloadImageHeaderSize ≤ f.image.length) :
    f.Determined := by
  have hheader : ∀ {i} mem, i < payloadImageHeaderSize →
      (f.header mem).getD i 0 = f.image.getD i 0 :=
    fun mem hi => header_getD_of_lt f mem hi (hi.trans_le h)
  constructor
  · intro mem mem'
    have hsame : f.header mem = f.header mem' := by
      rw [header, header, readBytes, readBytes]
      apply List.map_congr_left
      intro i hi
      have hlt := List.mem_range.mp hi
      have hwide := f.length_lt
      rw [load, flatLoad]
      rw [applyStores_imageStores mem _ hwide.le (by omega),
        applyStores_imageStores mem' _ hwide.le (by omega),
        List.getD_eq_getElem _ _ (hlt.trans_le h),
        List.getD_eq_getElem _ _ (hlt.trans_le h)]
    rw [verdict_eq, verdict_eq, hsame]
  · intro mem
    have hmagic : readWord32 (f.header mem) 8 = readWord32 f.image 8 := by
      simp only [readWord32]
      rw [hheader mem (by decide), hheader mem (by decide),
        hheader mem (by decide), hheader mem (by decide)]
    rw [verdict_eq]
    by_cases hcrc : Crc.crc32 f.image = f.crc
    · rw [if_neg (not_not_intro hcrc), checkHeader_eq_crcOk_iff, hmagic,
        hheader mem (by decide), hheader mem (by decide)]
      constructor
      · rintro ⟨hword, hmajor, hminor⟩
        exact ⟨hcrc, h, hword, hmajor, hminor⟩
      · intro hvalid
        exact ⟨hvalid.magic, hvalid.major, hvalid.minor⟩
    · rw [if_pos hcrc]
      exact iff_of_false (by rintro ⟨⟩) fun hvalid => hcrc hvalid.crc

/-- A byte of the image that no header has there settles the verdict. -/
theorem determined_of_refused
    (hshort : f.image.length < payloadImageHeaderSize) {i : ℕ}
    (hi : i < f.image.length) (hbyte : ¬HeaderByteOk i (f.image.getD i 0)) :
    f.Determined := by
  have hrefused : ∀ mem, checkHeader (f.header mem) ≠ .crcOk := by
    intro mem hok
    have h := checkHeader_eq_crcOk_iff_bytes.mp hok i
    rw [header_getD_of_lt f mem (hi.trans hshort) hi] at h
    exact hbyte h
  have hmagic : ∀ mem mem', readWord32 (f.header mem) 8 = abiMagicNumber →
      readWord32 (f.header mem') 8 = abiMagicNumber := by
    intro mem mem' hright
    rw [readWord32_eq_magic_iff] at hright ⊢
    intro j hlow hhigh
    by_cases hj : j < f.image.length
    · have h := hright j hlow hhigh
      rw [header_getD_of_lt f mem (hj.trans hshort) hj] at h
      rwa [header_getD_of_lt f mem' (hj.trans hshort) hj]
    · -- the byte that is wrong belongs to the magic number
      have h8 := (bounds_of_not_headerByteOk hbyte).1
      have h := hright i h8 (by omega)
      rw [header_getD_of_lt f mem (hi.trans hshort) hi] at h
      exact absurd h hbyte
  constructor
  · intro mem mem'
    rw [verdict_eq, verdict_eq]
    split
    · rfl
    · exact checkHeader_eq_of_refused ⟨hmagic mem mem', hmagic mem' mem⟩
        (hrefused mem) (hrefused mem')
  · intro mem
    rw [verdict_eq]
    refine iff_of_false ?_ fun hvalid => ?_
    · split
      · nofun
      · exact hrefused mem
    · exact absurd hvalid.length (Nat.not_le.mpr hshort)

/-- The checked part of a header that is accepted. -/
def acceptedHeader : List UInt8 :=
  [0, 0, 0, 0, 0, 0, 0, 0, 0x42, 0x6d, 0x62, 0x6f, 2, 0]

/-- Memory with such a header in the payload area. -/
def completion (address : BitVec 64) : UInt8 :=
  acceptedHeader.getD (address - payloadAddress f.domain).toNat 0

theorem completion_ok {i : ℕ} (hi : i < 2 ^ 64) :
    HeaderByteOk i
      (f.completion (payloadAddress f.domain + BitVec.ofNat 64 i)) := by
  have hoffset : (payloadAddress f.domain + BitVec.ofNat 64 i -
      payloadAddress f.domain).toNat = i := by
    rw [BitVec.add_comm, BitVec.add_sub_cancel, BitVec.toNat_ofNat,
      Nat.mod_eq_of_lt hi]
  rw [completion, hoffset]
  unfold HeaderByteOk
  split
  · rfl
  · rfl
  · rfl
  · rfl
  · rfl
  · decide
  · trivial

/-- Over that memory, a short image that could be the beginning of a header is
accepted. -/
theorem verdict_completion (hopen : f.OpenHeader)
    (hcrc : Crc.crc32 f.image = f.crc) :
    f.verdict f.completion = .crcOk := by
  rw [verdict_eq, if_neg (not_not_intro hcrc), checkHeader_eq_crcOk_iff_bytes]
  intro i
  by_cases hi : i < payloadImageHeaderSize
  · rw [header_getD f _ hi]
    by_cases hin : i < f.image.length
    · have h := hopen.2 i hin
      rwa [List.getD_eq_getElem _ _ hin] at h ⊢
    · rw [List.getD_eq_default _ _ (Nat.not_lt.mp hin)]
      exact f.completion_ok (hi.trans (by decide))
  · by_contra hbyte
    exact hi ((bounds_of_not_headerByteOk hbyte).2.trans (by decide))

end FlatImage

/-- The verdict on an image depends only on it, and is right, exactly when the
image has a complete header, or fails the checksum, or has a byte that no header
has. -/
theorem determined_iff_not_openHeader (f : FlatImage) :
    f.Determined ↔ Crc.crc32 f.image ≠ f.crc ∨ ¬f.OpenHeader := by
  constructor
  · intro hdetermined
    by_contra hopen
    rw [not_or, not_not, not_not] at hopen
    have hok := f.verdict_completion hopen.2 hopen.1
    have hvalid := (hdetermined.crcOk _).mp hok
    exact absurd hvalid.length (Nat.not_le.mpr hopen.2.1)
  · intro h
    by_cases hlength : payloadImageHeaderSize ≤ f.image.length
    · exact f.determined_of_length hlength
    · have hshort := Nat.not_le.mp hlength
      rcases h with hcrc | hopen
      · exact f.determined_of_crc hcrc
      · have hbyte : ¬∀ i < f.image.length,
            HeaderByteOk i (f.image.getD i 0) := fun hall => hopen ⟨hshort, hall⟩
        obtain ⟨i, hi⟩ := not_forall.mp hbyte
        obtain ⟨hlt, hwrong⟩ := Classical.not_imp.mp hi
        exact f.determined_of_refused hshort hlt hwrong

/-- One byte with its CRC-32. -/
def oneByte : FlatImage where
  domain := .cpu1
  image := [0]
  crc := 0xd202ef8d
  argument := 0
  nonempty := nofun
  length_le := by decide

theorem not_determined_oneByte : ¬∀ f : FlatImage, f.Determined := by
  intro hdetermined
  have hopen : oneByte.OpenHeader := by
    refine ⟨by decide, ?_⟩
    intro i hi
    obtain rfl : i = 0 := Nat.lt_one_iff.mp hi
    trivial
  have hok := oneByte.verdict_completion hopen (by decide)
  exact absurd ((hdetermined oneByte).crcOk _ |>.mp hok).length (by decide)

end Bmboot
