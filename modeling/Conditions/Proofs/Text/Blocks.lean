import Mathlib.Data.Char
import Mathlib.Data.Prod.Lex
import Conditions.Proofs.Text.Units

/-!
# The order of characters behind an encoding

An encoding that puts the codes of two different characters apart, whatever follows them, orders
texts as the characters are ordered (`flatMap_lt_iff`): the first place where two texts differ
decides, and a proper beginning comes first.

Code units keep the characters in three blocks, those of two units between the two blocks of one
unit (`place`, `units16_append_lt`). Bytes keep the order of code points
(`utf8EncodeChar_append_lt`). The two orders differ only on a character of two units beside one from
`U+E000` to `U+FFFF` (`place_lt_iff_of_not_mixed`).
-/

namespace Conditions

variable {α β : Type} {cs ds : List Char}

/-! ### Encodings that keep an order -/

section Encodings

variable [LinearOrder α] [LT β] {key : Char → α} {encode : Char → List β}

/-- Where the keys of two lists differ for the first time, the codes do. -/
theorem flatMap_lt_of_map_lt (hkey : Function.Injective key) (hne : ∀ c, encode c ≠ [])
    (hcodes : ∀ c ∈ cs, ∀ d ∈ ds, key c < key d → ∀ u v, encode c ++ u < encode d ++ v)
    (h : cs.map key < ds.map key) : cs.flatMap encode < ds.flatMap encode := by
  induction cs generalizing ds with
  | nil =>
    cases ds with
    | nil => exact absurd h (lt_irrefl _)
    | cons d ds =>
      obtain ⟨b, code, hcode⟩ := List.exists_cons_of_ne_nil (hne d)
      rw [List.flatMap_nil, List.flatMap_cons, hcode]
      exact List.nil_lt_cons _ _
  | cons c cs ih =>
    cases ds with
    | nil => exact absurd h (List.not_lt_nil _)
    | cons d ds =>
      rw [List.flatMap_cons, List.flatMap_cons]
      rcases List.cons_lt_cons_iff.mp h with hlt | ⟨heq, hrest⟩
      · exact hcodes c List.mem_cons_self d List.mem_cons_self hlt _ _
      · obtain rfl := hkey heq
        refine List.append_left_lt (ih (fun c hc d hd => ?_) hrest)
        exact hcodes c (List.mem_cons_of_mem _ hc) d (List.mem_cons_of_mem _ hd)

/-- **An encoding orders lists as the keys of their characters do**, if the codes of characters with
different keys are apart in the order of the keys. -/
theorem flatMap_lt_iff [Std.Asymm (α := β) (· < ·)] (hkey : Function.Injective key)
    (hne : ∀ c, encode c ≠ [])
    (hcodes : ∀ c ∈ cs ++ ds, ∀ d ∈ cs ++ ds, key c < key d →
      ∀ u v, encode c ++ u < encode d ++ v) :
    cs.flatMap encode < ds.flatMap encode ↔ cs.map key < ds.map key := by
  refine ⟨fun h => ?_, flatMap_lt_of_map_lt hkey hne fun c hc d hd =>
    hcodes c (List.mem_append_left _ hc) d (List.mem_append_right _ hd)⟩
  rcases lt_trichotomy (cs.map key) (ds.map key) with hlt | heq | hgt
  · exact hlt
  · rw [List.map_injective_iff.mpr hkey heq] at h
    exact absurd h (List.lt_asymm h)
  · have hback : ds.flatMap encode < cs.flatMap encode :=
      flatMap_lt_of_map_lt hkey hne (fun d hd c hc =>
        hcodes d (List.mem_append_right _ hd) c (List.mem_append_left _ hc)) hgt
    exact absurd hback (List.lt_asymm h)

end Encodings

/-! ### Blocks of characters -/

/-- The block of a character: those up to `U+D7FF`, those above `U+FFFF`, and those from `U+E000` to
`U+FFFF`. -/
def block (c : Char) : Nat :=
  if c.toNat < 0xd800 then 0 else if 0x10000 ≤ c.toNat then 1 else 2

/-- The place of a character in the order of units: its block, and its code point there. -/
def place (c : Char) : ℕ ×ₗ ℕ := toLex (block c, c.toNat)

/-- What the blocks are. -/
theorem block_cases (c : Char) :
    (block c = 0 ∧ c.toNat < 0xd800) ∨ (block c = 1 ∧ 0x10000 ≤ c.toNat) ∨
      (block c = 2 ∧ 0xe000 ≤ c.toNat ∧ c.toNat < 0x10000) := by
  have hvalid := toNat_not_surrogate c
  unfold block
  split
  · exact .inl ⟨rfl, by assumption⟩
  · split
    · exact .inr (.inl ⟨rfl, by assumption⟩)
    · exact .inr (.inr ⟨rfl, by omega⟩)

theorem place_injective : Function.Injective place := fun _ _ h =>
  Char.toNat_inj.mp (congrArg Prod.snd (toLex.injective h))

theorem place_lt_iff {c d : Char} :
    place c < place d ↔ block c < block d ∨ block c = block d ∧ c.toNat < d.toNat :=
  Prod.Lex.toLex_lt_toLex

/-- The units of characters stand to each other as the characters do by their blocks. -/
theorem units16_append_lt {c d : Char} (h : place c < place d) (u v : List Nat) :
    units16 c ++ u < units16 d ++ v := by
  rw [place_lt_iff] at h
  have hcblock := block_cases c
  have hdblock := block_cases d
  have hcplanes := toNat_lt_planes c
  have hdplanes := toNat_lt_planes d
  -- the first unit of a pair lies between the two blocks of single units
  rcases Nat.lt_or_ge c.toNat 0x10000 with hone | htwo <;>
    rcases Nat.lt_or_ge d.toNat 0x10000 with hone' | htwo'
  · rw [units16_of_lt hone, units16_of_lt hone']
    exact List.cons_lt_cons_iff.mpr (.inl (by omega))
  · rw [units16_of_lt hone, units16_of_le htwo']
    exact List.cons_lt_cons_iff.mpr (.inl (by omega))
  · rw [units16_of_le htwo, units16_of_lt hone']
    exact List.cons_lt_cons_iff.mpr (.inl (by omega))
  · have hlt : c.toNat < d.toNat := by omega
    rw [units16_of_le htwo, units16_of_le htwo']
    simp only [List.cons_append, List.nil_append, List.cons_lt_cons_iff]
    omega

theorem textPrecedes_iff_place {s t : String} :
    textPrecedes s t = true ↔ s.toList.map place < t.toList.map place := by
  rw [textPrecedes_iff]
  exact flatMap_lt_iff place_injective units16_ne_nil fun _ _ _ _ h => units16_append_lt h

/-! ### Code points and bytes -/

/-- Some character of a list is one of two units, and some character is one of the block after
them. -/
def IsMixed (cs : List Char) : Prop :=
  (∃ c ∈ cs, 0xffff < c.toNat) ∧ ∃ c ∈ cs, 0xe000 ≤ c.toNat ∧ c.toNat ≤ 0xffff

theorem place_lt_iff_of_not_mixed (h : ¬ IsMixed cs) {c d : Char} (hc : c ∈ cs) (hd : d ∈ cs) :
    place c < place d ↔ c < d := by
  have hcd : ¬ (0xffff < c.toNat ∧ 0xe000 ≤ d.toNat ∧ d.toNat ≤ 0xffff) :=
    fun hmixed => h ⟨⟨c, hc, hmixed.1⟩, d, hd, hmixed.2⟩
  have hdc : ¬ (0xffff < d.toNat ∧ 0xe000 ≤ c.toNat ∧ c.toNat ≤ 0xffff) :=
    fun hmixed => h ⟨⟨d, hd, hmixed.1⟩, c, hc, hmixed.2⟩
  have hcblock := block_cases c
  have hdblock := block_cases d
  have hpoints : c < d ↔ c.toNat < d.toNat := Iff.rfl
  rw [place_lt_iff, hpoints]
  omega

/-- Where characters of both blocks do not meet, texts are ordered by code points. -/
theorem map_place_lt_iff {s t : String} (h : ¬ IsMixed (s.toList ++ t.toList)) :
    s.toList.map place < t.toList.map place ↔ s < t := by
  have hself (cs : List Char) : cs.flatMap (fun c => [c]) = cs := by
    induction cs with
    | nil => rfl
    | cons c cs ih => rw [List.flatMap_cons, ih, List.singleton_append]
  rw [String.lt_iff, ← flatMap_lt_iff place_injective fun c => List.cons_ne_nil c []]
  · rw [hself, hself]
  · intro c hc d hd hlt u v
    exact List.cons_lt_cons_iff.mpr (.inl ((place_lt_iff_of_not_mixed h hc hd).mp hlt))

/-- The bytes of a character, by how many there are. -/
theorem utf8EncodeChar_cases (c : Char) :
    (c.toNat < 0x80 ∧ String.utf8EncodeChar c = [.ofNat c.toNat]) ∨
    (0x80 ≤ c.toNat ∧ c.toNat < 0x800 ∧ String.utf8EncodeChar c =
      [.ofNat (c.toNat / 64 % 32 + 192), .ofNat (c.toNat % 64 + 128)]) ∨
    (0x800 ≤ c.toNat ∧ c.toNat < 0x10000 ∧ String.utf8EncodeChar c =
      [.ofNat (c.toNat / 64 / 64 % 16 + 224), .ofNat (c.toNat / 64 % 64 + 128),
        .ofNat (c.toNat % 64 + 128)]) ∨
    (0x10000 ≤ c.toNat ∧ String.utf8EncodeChar c =
      [.ofNat (c.toNat / 64 / 64 / 64 % 8 + 240), .ofNat (c.toNat / 64 / 64 % 64 + 128),
        .ofNat (c.toNat / 64 % 64 + 128), .ofNat (c.toNat % 64 + 128)]) := by
  simp only [Nat.div_div_eq_div_mul]
  unfold String.utf8EncodeChar
  dsimp only
  split
  · next h => exact .inl ⟨Nat.lt_succ_of_le h, rfl⟩
  · next h =>
    split
    · next h' => exact .inr (.inl ⟨Nat.lt_of_not_le h, Nat.lt_succ_of_le h', rfl⟩)
    · next h' =>
      split
      · next h'' =>
        exact .inr (.inr (.inl ⟨Nat.lt_of_not_le h', Nat.lt_succ_of_le h'', rfl⟩))
      · next h'' => exact .inr (.inr (.inr ⟨Nat.lt_of_not_le h'', rfl⟩))

/-- The bytes of characters stand to each other as the characters do by their code points. -/
theorem utf8EncodeChar_append_lt {c d : Char} (h : c < d) (u v : List UInt8) :
    String.utf8EncodeChar c ++ u < String.utf8EncodeChar d ++ v := by
  have hlt : c.toNat < d.toNat := h
  have hplanes := toNat_lt_planes d
  -- more bytes begin with a greater one, and as many bytes hold the digits of the code points
  rcases utf8EncodeChar_cases c with ⟨_, hc⟩ | ⟨_, _, hc⟩ | ⟨_, _, hc⟩ | ⟨_, hc⟩ <;>
    rcases utf8EncodeChar_cases d with ⟨_, hd⟩ | ⟨_, _, hd⟩ | ⟨_, _, hd⟩ | ⟨_, hd⟩ <;>
    rw [hc, hd] <;>
    simp only [List.cons_append, List.nil_append, List.cons_lt_cons_iff, UInt8.lt_iff_toNat_lt,
      UInt8.toNat_ofNat', ← UInt8.toNat_inj] <;>
    omega

/-- **Texts are ordered by their bytes as by their code points.** -/
theorem toByteArray_lt_iff {s t : String} :
    s.toByteArray.data.toList < t.toByteArray.data.toList ↔ s < t := by
  have hbytes (s : String) :
      s.toByteArray.data.toList = s.toList.flatMap String.utf8EncodeChar := by
    rw [← String.utf8Encode_toList, List.utf8Encode, List.data_toByteArray]
  have horder : s.toList.flatMap String.utf8EncodeChar < t.toList.flatMap String.utf8EncodeChar ↔
      s.toList.map id < t.toList.map id :=
    flatMap_lt_iff Function.injective_id (fun _ => String.utf8EncodeChar_ne_nil)
      fun _ _ _ _ h => utf8EncodeChar_append_lt h
  rw [hbytes, hbytes, horder, List.map_id, List.map_id, String.lt_iff]

end Conditions
