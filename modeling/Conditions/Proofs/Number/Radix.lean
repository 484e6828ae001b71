import Conditions.Number.Coercion
import Conditions.Proofs.Number.Nearest
import Mathlib.Data.Nat.Digits.Lemmas

/-!
# Digits rounded one at a time

Digits of a radix two, eight or sixteen are taken one at a time, and the number so far is rounded to
53 binary digits after each. What is lost by this is told exactly (`isRounded_roundDigits`).

Up to 53 binary digits nothing is rounded. The first digits that make a longer number are rounded
once. From then on the number so far ends in more binary zeros than a digit has binary digits, so it
is only scaled, and all further digits are lost (`roundDigits_of_isCoarse`). So a number comes out
wrong only if its first digits denote a number halfway between two neighbours, the lower of which is
even, and what follows is not zero: it is then rounded down, and should have been rounded up.
-/

namespace Conditions

/-- Digits of a radix, with their values. -/
def HaveValues (radix : Nat) (ds : List Char) (values : List Nat) : Prop :=
  List.Forall₂ (fun c d => digitValue? c = some d ∧ d < radix) ds values

/-- The whole number of the values of digits, the first digit counting most. -/
def wholeNumber (radix : Nat) (values : List Nat) : Nat := Nat.ofDigits radix values.reverse

/-- The number after further digits, rounded after each. -/
def roundDigits (radix n : Nat) (values : List Nat) : Nat :=
  values.foldl (fun n d => roundTo53 (radix * n + d)) n

/-- A number is halfway between two neighbours, the lower of even rank: in binary it has 54 digits,
the last two of which are zero and one, and then zeros. -/
def IsLowMidpoint (n : Nat) : Prop := ∃ a i, n = (4 * a + 1) * 2 ^ i ∧ 2 ^ 51 ≤ a ∧ a < 2 ^ 52

/-- Some first digits denote a midpoint over an even neighbour, and a digit after them is not
zero. -/
def IsLost (radix : Nat) (values : List Nat) : Prop :=
  ∃ lead tail, values = lead ++ tail ∧ IsLowMidpoint (wholeNumber radix lead) ∧ ∃ d ∈ tail, d ≠ 0

variable {radix k : Nat} {values lead tail : List Nat} {n d : Nat}

/-! ### Whole numbers of digits -/

theorem wholeNumber_append (radix : Nat) (lead tail : List Nat) :
    wholeNumber radix (lead ++ tail) =
      wholeNumber radix lead * radix ^ tail.length + wholeNumber radix tail := by
  rw [wholeNumber, List.reverse_append, Nat.ofDigits_append, List.length_reverse]
  simp only [wholeNumber]
  ring

theorem wholeNumber_concat (radix : Nat) (lead : List Nat) (d : Nat) :
    wholeNumber radix (lead ++ [d]) = radix * wholeNumber radix lead + d := by
  rw [wholeNumber, List.reverse_concat, Nat.ofDigits_cons, Nat.add_comm]
  rfl

theorem wholeNumber_lt (hradix : 1 < radix) (h : ∀ d ∈ values, d < radix) :
    wholeNumber radix values < radix ^ values.length := by
  rw [wholeNumber, ← List.length_reverse]
  exact Nat.ofDigits_lt_base_pow_length hradix fun d hd => h d (List.mem_reverse.mp hd)

theorem wholeNumber_le_append (hradix : 0 < radix) (lead tail : List Nat) :
    wholeNumber radix lead ≤ wholeNumber radix (lead ++ tail) := by
  rw [wholeNumber_append]
  exact Nat.le_add_right_of_le (Nat.le_mul_of_pos_right _ (Nat.pow_pos hradix))

theorem wholeNumber_eq_zero_iff (hradix : 0 < radix) :
    wholeNumber radix values = 0 ↔ ∀ d ∈ values, d = 0 := by
  induction values using List.reverseRecOn with
  | nil => simp [wholeNumber]
  | append_singleton lead d ih =>
    rw [wholeNumber_concat, Nat.add_eq_zero_iff, Nat.mul_eq_zero, ih]
    simp only [List.mem_append, List.mem_singleton, hradix.ne', false_or]
    exact ⟨fun h e he => he.elim (h.1 e) fun he => he ▸ h.2,
      fun h => ⟨fun e he => h e (.inl he), h d (.inr rfl)⟩⟩

/-! ### One digit more -/

/-- Up to 53 binary digits nothing is rounded. -/
theorem roundTo53_of_lt (h : n < 2 ^ 53) : roundTo53 n = n := by
  have hlog : n.log2 - 52 = 0 := by
    rcases Nat.eq_zero_or_pos n with rfl | hpos
    · rfl
    · have := (Nat.log2_lt hpos.ne').mpr h
      omega
  have hone : Nat.pow 2 0 = 1 := rfl
  rw [roundTo53, hlog, hone, Nat.mul_one]
  exact nearestEven_eq (by omega) (by omega)

/-- Of 53 binary digits and then some zeros. -/
def IsCoarse (n : Nat) : Prop := ∃ m j, n = m * 2 ^ j ∧ 2 ^ 52 ≤ m ∧ m < 2 ^ 53 ∧ 1 ≤ j

/-- A digit after a coarse number is lost. -/
theorem IsCoarse.roundTo53_add (h : IsCoarse n) (hd : d < 2 ^ k) :
    roundTo53 (2 ^ k * n + d) = 2 ^ k * n := by
  obtain ⟨m, j, rfl, hlow, hhigh, hj⟩ := h
  have hpow : 2 ^ k * (m * 2 ^ j) = m * 2 ^ (j + k) := by rw [Nat.pow_add]; ring
  -- the digit is less than half of the last place that is kept
  have hhalf : 2 * d < 2 ^ (j + k) := by
    calc 2 * d < 2 ^ (k + 1) := by rw [Nat.pow_succ]; omega
      _ ≤ 2 ^ (j + k) := Nat.pow_le_pow_right (by decide) (by omega)
  have hlog : (m * 2 ^ (j + k) + d).log2 = 52 + (j + k) := by
    refine Binary64.log2_eq_of_between ?_ ?_
    · exact Nat.le_add_right_of_le (Nat.mul_le_mul_right _ hlow)
    · have hstep : (m + 1) * 2 ^ (j + k) ≤ 2 ^ 53 * 2 ^ (j + k) := Nat.mul_le_mul_right _ hhigh
      rw [Nat.succ_mul] at hstep
      omega
  have hexp : 52 + (j + k) - 52 = j + k := by omega
  rw [hpow, roundTo53, hlog, hexp]
  refine congrArg (· * 2 ^ (j + k)) (nearestEven_eq ?_ ?_)
  · show 2 * (m * 2 ^ (j + k)) < 2 * (m * 2 ^ (j + k) + d) + 2 ^ (j + k)
    omega
  · show 2 * (m * 2 ^ (j + k) + d) < 2 * (m * 2 ^ (j + k)) + 2 ^ (j + k)
    omega

theorem IsCoarse.mul (h : IsCoarse n) (k : Nat) : IsCoarse (2 ^ k * n) := by
  obtain ⟨m, j, rfl, hlow, hhigh, hj⟩ := h
  exact ⟨m, j + k, by rw [Nat.pow_add]; ring, hlow, hhigh, by omega⟩

/-- **All digits after a coarse number are lost.** -/
theorem roundDigits_of_isCoarse (h : IsCoarse n) (hvalues : ∀ d ∈ values, d < 2 ^ k) :
    roundDigits (2 ^ k) n values = n * (2 ^ k) ^ values.length := by
  induction values generalizing n with
  | nil => simp [roundDigits]
  | cons d values ih =>
    have hstep : roundDigits (2 ^ k) n (d :: values) = roundDigits (2 ^ k) (2 ^ k * n) values := by
      rw [roundDigits, List.foldl_cons, h.roundTo53_add (hvalues d List.mem_cons_self)]
      rfl
    rw [hstep, ih (h.mul k) fun e he => hvalues e (List.mem_cons_of_mem _ he), List.length_cons,
      Nat.pow_succ]
    ring

/-! ### From the first digits on -/

theorem le_nearestEven (n d : Nat) : n / d ≤ nearestEven n d := by
  unfold nearestEven
  split
  · exact Nat.le_refl _
  · split <;> exact Nat.le_add_right _ _

/-- What a number of more than 53 binary digits keeps of them. -/
theorem nearestEven_bounds (h : 2 ^ 53 ≤ n) : 1 ≤ n.log2 - 52 ∧
    2 ^ 52 ≤ nearestEven n (2 ^ (n.log2 - 52)) ∧
    nearestEven n (2 ^ (n.log2 - 52)) ≤ 2 ^ 53 := by
  have hlog : 53 ≤ n.log2 := (Nat.le_log2 (by omega)).mpr h
  have hlow := (Binary64.le_div_pow_log2 n).resolve_left (by omega)
  have hhigh := Binary64.div_pow_log2_lt n
  have hle := le_nearestEven n (2 ^ (n.log2 - 52))
  have hge := Binary64.nearestEven_le n (2 ^ (n.log2 - 52))
  unfold Binary64.ranksPerShift at hlow hhigh
  omega

theorem isCoarse_roundTo53 (h : 2 ^ 53 ≤ n) : IsCoarse (roundTo53 n) := by
  obtain ⟨hlog, hlow, hhigh⟩ := nearestEven_bounds h
  rcases Nat.lt_or_eq_of_le hhigh with hlt | heq
  · exact ⟨_, n.log2 - 52, rfl, hlow, hlt, hlog⟩
  · refine ⟨2 ^ 52, n.log2 - 52 + 1, ?_, Nat.le_refl _, by decide, by omega⟩
    have hround : roundTo53 n = 2 ^ 53 * 2 ^ (n.log2 - 52) := congrArg (· * _) heq
    rw [hround, Nat.pow_succ 2 (n.log2 - 52)]
    ring

/-- A short number of digits is not rounded. -/
theorem roundDigits_of_lt (hradix : 0 < radix) (h : wholeNumber radix values < 2 ^ 53) :
    roundDigits radix 0 values = wholeNumber radix values := by
  induction values using List.reverseRecOn with
  | nil => rfl
  | append_singleton lead d ih =>
    have hlead := ih (Nat.lt_of_le_of_lt (wholeNumber_le_append hradix lead [d]) h)
    rw [wholeNumber_concat] at h ⊢
    rw [roundDigits, List.foldl_concat]
    unfold roundDigits at hlead
    rw [hlead, roundTo53_of_lt h]

/-- The first digits that make a long number are rounded once. -/
theorem exists_lead (hradix : 0 < radix) (h : 2 ^ 53 ≤ wholeNumber radix values) :
    ∃ lead tail, values = lead ++ tail ∧ 2 ^ 53 ≤ wholeNumber radix lead ∧
      roundDigits radix 0 lead = roundTo53 (wholeNumber radix lead) ∧
      ∀ shorter rest, lead = shorter ++ rest → rest ≠ [] →
        wholeNumber radix shorter < 2 ^ 53 := by
  induction values using List.reverseRecOn with
  | nil => exact absurd h (by simp [wholeNumber])
  | append_singleton lead d ih =>
    rcases Nat.lt_or_ge (wholeNumber radix lead) (2 ^ 53) with hshort | hlong
    · refine ⟨lead ++ [d], [], (List.append_nil _).symm, h, ?_, fun shorter rest heq hne => ?_⟩
      · have hlead := roundDigits_of_lt hradix hshort
        unfold roundDigits at hlead
        rw [roundDigits, List.foldl_concat, hlead, wholeNumber_concat]
      · obtain ⟨rest, e, rfl⟩ := (List.eq_nil_or_concat' rest).resolve_left hne
        rw [← List.append_assoc] at heq
        obtain ⟨rfl, -⟩ := List.append_inj' heq rfl
        exact Nat.lt_of_le_of_lt (wholeNumber_le_append hradix shorter rest) hshort
    · obtain ⟨lead', tail, rfl, hlead⟩ := ih hlong
      exact ⟨lead', tail ++ [d], List.append_assoc _ _ _, hlead⟩

/-! ### Midpoints -/

/-- Where what is rounded goes on below the place that is rounded, a midpoint goes up. -/
theorem nearestEven_mul_add {s rest : Nat} (heven : d % 2 = 0) (hd : 0 < d) (hrest : rest < s) :
    nearestEven (n * s + rest) (d * s) =
      nearestEven n d + if 2 * (n % d) = d ∧ n / d % 2 = 0 ∧ rest ≠ 0 then 1 else 0 := by
  have hs : 0 < s := Nat.zero_lt_of_lt hrest
  have hdiv : (n * s + rest) / (d * s) = n / d := by
    rw [Nat.mul_comm d s, ← Nat.div_div_eq_div_mul, Nat.mul_comm n s, Nat.mul_add_div hs,
      Nat.div_eq_of_lt hrest, Nat.add_zero]
  have hmod : (n * s + rest) % (d * s) = n % d * s + rest := by
    have hsplit := Nat.div_add_mod (n * s + rest) (d * s)
    have hn : n * s = d * s * (n / d) + n % d * s := by
      conv_lhs => rw [← Nat.div_add_mod n d]
      ring
    rw [hdiv] at hsplit
    omega
  have hmodlt := Nat.mod_lt n hd
  simp only [nearestEven, hdiv, hmod]
  rcases Nat.lt_trichotomy (2 * (n % d)) d with h | h | h
  · have hstep : (2 * (n % d) + 2) * s ≤ d * s := Nat.mul_le_mul_right s (by omega)
    rw [Nat.add_mul, Nat.mul_assoc] at hstep
    rw [if_pos (by omega), if_pos h, if_neg (by omega), Nat.add_zero]
  · have hstep : 2 * (n % d * s) = d * s := by rw [← Nat.mul_assoc, h]
    rw [if_neg (by omega), if_neg (by omega : ¬ 2 * (n % d) < d),
      if_neg (by omega : ¬ d < 2 * (n % d))]
    by_cases hzero : rest = 0
    · rw [if_neg (by omega), if_neg (by omega), Nat.add_zero]
    · rw [if_pos (by omega)]
      split <;> omega
  · have hstep : (d + 1) * s ≤ 2 * (n % d) * s := Nat.mul_le_mul_right s h
    rw [Nat.succ_mul, Nat.mul_assoc] at hstep
    rw [if_neg (by omega), if_pos (by omega), if_neg (by omega), if_pos h, if_neg (by omega)]

theorem isLowMidpoint_iff (h : 2 ^ 53 ≤ n) : IsLowMidpoint n ↔
    2 * (n % 2 ^ (n.log2 - 52)) = 2 ^ (n.log2 - 52) ∧ n / 2 ^ (n.log2 - 52) % 2 = 0 := by
  constructor
  · rintro ⟨a, i, rfl, hlow, hhigh⟩
    have hlog : ((4 * a + 1) * 2 ^ i).log2 = 53 + i :=
      Binary64.log2_eq_of_between (Nat.mul_le_mul_right _ (by omega))
        (Nat.mul_lt_mul_of_pos_right (by omega) (Nat.two_pow_pos i))
    have hexp : 53 + i - 52 = i + 1 := by omega
    have hodd : (4 * a + 1) % 2 = 1 := by omega
    have hhalf : (4 * a + 1) / 2 = 2 * a := by omega
    rw [hlog, hexp, Nat.pow_succ, Nat.mul_comm (2 ^ i) 2, Nat.mul_mod_mul_right,
      Nat.mul_div_mul_right _ _ (Nat.two_pow_pos i), hodd, hhalf, Nat.one_mul,
      Nat.mul_mod_right]
    exact ⟨rfl, rfl⟩
  · rintro ⟨hhalf, heven⟩
    obtain ⟨hlog, -, -⟩ := nearestEven_bounds h
    have hlow := (Binary64.le_div_pow_log2 n).resolve_left (by omega)
    have hhigh := Binary64.div_pow_log2_lt n
    have hn := Nat.div_add_mod n (2 ^ (n.log2 - 52))
    have hpow : 2 ^ (n.log2 - 52) = 2 * 2 ^ (n.log2 - 53) := by
      rw [Nat.mul_comm, ← Nat.pow_succ]
      congr 1
      omega
    obtain ⟨a, ha⟩ : ∃ a, n / 2 ^ (n.log2 - 52) = 2 * a :=
      ⟨n / 2 ^ (n.log2 - 52) / 2, by omega⟩
    have hrest : n % 2 ^ (n.log2 - 52) = 2 ^ (n.log2 - 53) := by omega
    unfold Binary64.ranksPerShift at hlow hhigh
    rw [ha, hrest, hpow] at hn
    exact ⟨a, n.log2 - 53, hn.symm.trans (by ring), by omega, by omega⟩

/-- Digits that go on from a long number to a midpoint are zeros, and it was one before them. -/
theorem IsLowMidpoint.of_mul_add {s rest : Nat} (h : IsLowMidpoint (n * 2 ^ s + rest))
    (hn : 2 ^ 53 ≤ n) (hrest : rest < 2 ^ s) : IsLowMidpoint n := by
  obtain ⟨a, i, heq, hlow, hhigh⟩ := h
  have hle : s ≤ i := by
    have hlt : 2 ^ (53 + s) < 2 ^ (54 + i) := by
      calc 2 ^ (53 + s) = 2 ^ 53 * 2 ^ s := Nat.pow_add 2 53 s
        _ ≤ n * 2 ^ s + rest := Nat.le_add_right_of_le (Nat.mul_le_mul_right _ hn)
        _ = (4 * a + 1) * 2 ^ i := heq
        _ < 2 ^ 54 * 2 ^ i := Nat.mul_lt_mul_of_pos_right (by omega) (Nat.two_pow_pos i)
        _ = 2 ^ (54 + i) := (Nat.pow_add 2 54 i).symm
    have := (Nat.pow_lt_pow_iff_right (by decide)).mp hlt
    omega
  have hpow : 2 ^ i = 2 ^ (i - s) * 2 ^ s := by rw [← Nat.pow_add, Nat.sub_add_cancel hle]
  have hn' : n = (4 * a + 1) * 2 ^ (i - s) := by
    have hdiv : (n * 2 ^ s + rest) / 2 ^ s = (4 * a + 1) * 2 ^ i / 2 ^ s := congrArg (· / 2 ^ s) heq
    rwa [hpow, ← Nat.mul_assoc, Nat.mul_div_cancel _ (Nat.two_pow_pos s), Nat.mul_comm n,
      Nat.mul_add_div (Nat.two_pow_pos s), Nat.div_eq_of_lt hrest, Nat.add_zero] at hdiv
  exact ⟨a, i - s, hn', hlow, hhigh⟩

theorem IsLowMidpoint.le (h : IsLowMidpoint n) : 2 ^ 53 ≤ n := by
  obtain ⟨a, i, rfl, hlow, -⟩ := h
  exact Nat.le_trans (by omega : 2 ^ 53 ≤ 4 * a + 1) (Nat.le_mul_of_pos_right _ (Nat.two_pow_pos i))

/-- The shortest first digits that make a long number tell whether anything is lost. -/
theorem isLost_append_iff (hvalues : ∀ d ∈ lead ++ tail, d < 2 ^ k) (hk : 1 ≤ k)
    (hlong : 2 ^ 53 ≤ wholeNumber (2 ^ k) lead)
    (hshort : ∀ shorter rest, lead = shorter ++ rest → rest ≠ [] →
      wholeNumber (2 ^ k) shorter < 2 ^ 53) :
    IsLost (2 ^ k) (lead ++ tail) ↔
      IsLowMidpoint (wholeNumber (2 ^ k) lead) ∧ wholeNumber (2 ^ k) tail ≠ 0 := by
  have hradix : 1 < 2 ^ k := Nat.one_lt_two_pow (by omega)
  have hnonzero {ds : List Nat} : wholeNumber (2 ^ k) ds ≠ 0 ↔ ∃ d ∈ ds, d ≠ 0 := by
    rw [ne_eq, wholeNumber_eq_zero_iff (Nat.two_pow_pos k)]
    push Not
    rfl
  rw [hnonzero]
  constructor
  · rintro ⟨lead', tail', heq, hmid, d, hd, hne⟩
    rcases List.append_eq_append_iff.mp heq with ⟨further, rfl, rfl⟩ | ⟨further, hlead, rfl⟩
    · rw [wholeNumber_append, ← Nat.pow_mul] at hmid
      have hlt : wholeNumber (2 ^ k) further < 2 ^ (k * further.length) := by
        rw [Nat.pow_mul]
        exact wholeNumber_lt hradix fun e he =>
          hvalues e (List.mem_append_right _ (List.mem_append_left _ he))
      exact ⟨hmid.of_mul_add hlong hlt, d, List.mem_append_right _ hd, hne⟩
    · by_cases hnil : further = []
      · rw [hnil, List.append_nil] at hlead
        rw [hnil, List.nil_append] at hd
        exact ⟨hlead ▸ hmid, d, hd, hne⟩
      · exact absurd hmid.le (Nat.not_le.mpr (hshort lead' further hlead hnil))
  · rintro ⟨hmid, hne⟩
    exact ⟨lead, tail, rfl, hmid, hne⟩

/-! ### Ranks -/

namespace Binary64

/-- The rank of a long number that is rounded first and then scaled. -/
theorem rankOfRatio_roundTo53 (h : 2 ^ 53 ≤ n) (s : Nat) :
    rankOfRatio (roundTo53 n * 2 ^ s) 1 = min infinityRank
      ((n.log2 + s + 1022) * ranksPerShift + nearestEven n (2 ^ (n.log2 - 52))) := by
  obtain ⟨hlog, hlow, hhigh⟩ := nearestEven_bounds h
  refine rankOfRatio_of_units ?_
  have hexp : n.log2 - 52 + s + 1074 = n.log2 + s + 1022 := by omega
  rw [units_eq hhigh (.inr hlow), ← hexp, two_pow_add_units, Nat.pow_add, roundTo53]
  simp only [Nat.pow_eq, Nat.mul_assoc]

theorem log2_mul_add {s rest : Nat} (hn : n ≠ 0) (hrest : rest < 2 ^ s) :
    (n * 2 ^ s + rest).log2 = n.log2 + s := by
  refine log2_eq_of_between ?_ ?_
  · exact Nat.le_add_right_of_le (Nat.mul_le_mul_right _ (Nat.log2_self_le hn))
  · have hstep : (n + 1) * 2 ^ s ≤ 2 ^ (n.log2 + 1) * 2 ^ s :=
      Nat.mul_le_mul_right _ Nat.lt_log2_self
    rw [Nat.succ_mul] at hstep
    omega

/-- The rank of a long number that is scaled first and then rounded. -/
theorem rankOfRatio_mul_add {s rest : Nat} (h : 2 ^ 53 ≤ n) (hrest : rest < 2 ^ s) :
    rankOfRatio (n * 2 ^ s + rest) 1 = min infinityRank
      ((n.log2 + s + 1022) * ranksPerShift + (nearestEven n (2 ^ (n.log2 - 52)) +
        if 2 * (n % 2 ^ (n.log2 - 52)) = 2 ^ (n.log2 - 52) ∧ n / 2 ^ (n.log2 - 52) % 2 = 0 ∧
          rest ≠ 0 then 1 else 0)) := by
  have hn : n ≠ 0 := by omega
  obtain ⟨hlog, -, -⟩ := nearestEven_bounds h
  have hexp : n.log2 + s - 52 = n.log2 - 52 + s := by omega
  have heven : 2 ^ (n.log2 - 52) % 2 = 0 := by
    have hpow : 2 ^ (n.log2 - 52) = 2 ^ (n.log2 - 53) * 2 := by
      rw [← Nat.pow_succ]
      congr 1
      omega
    rw [hpow, Nat.mul_mod_left]
  have hle : 2 ^ 52 ≤ n * 2 ^ s + rest :=
    Nat.le_add_right_of_le (Nat.le_trans (by omega) (Nat.le_mul_of_pos_right n (Nat.two_pow_pos s)))
  rw [rankOfRatio_whole hle, log2_mul_add hn hrest, hexp, Nat.pow_add,
    nearestEven_mul_add heven (Nat.two_pow_pos _) hrest]

theorem isRounded_ofNat_iff {m n : Nat} :
    IsRounded false n (ofNat m) ↔ rankOfRatio m 1 = rankOfRatio n 1 := by
  constructor
  · intro h
    have heq := h.unique (isRounded_ofNat n)
    rw [← rank_ofRatio false m 1, ← rank_ofRatio false n 1]
    exact congrArg rank heq
  · intro h
    have heq : ofNat m = ofNat n := congrArg (ofRank false) h
    rw [heq]
    exact isRounded_ofNat n

/-- Rounding first and scaling then is one rank short for a midpoint with something after it. -/
theorem isRounded_scaled {s rest : Nat} (h : 2 ^ 53 ≤ n) (hrest : rest < 2 ^ s) :
    (IsRounded false (n * 2 ^ s + rest : Nat) (ofNat (roundTo53 n * 2 ^ s)) ↔
      (IsLowMidpoint n ∧ rest ≠ 0 → 2 ^ 1024 ≤ n * 2 ^ s + rest)) ∧
    (IsLowMidpoint n ∧ rest ≠ 0 → n * 2 ^ s + rest < 2 ^ 1024 →
      IsRounded false (n * 2 ^ s + rest : Nat)
        (ofRank false ((ofNat (roundTo53 n * 2 ^ s)).rank + 1))) := by
  have hsum : n * 2 ^ s + rest ≠ 0 :=
    (Nat.lt_of_lt_of_le (Nat.mul_pos (by omega) (Nat.two_pow_pos s)) (Nat.le_add_right _ _)).ne'
  have hfinite : n * 2 ^ s + rest < 2 ^ 1024 ↔ n.log2 + s < 1024 := by
    rw [← Nat.log2_lt hsum, log2_mul_add (by omega) hrest]
  obtain ⟨hlog, hlow, hhigh⟩ := nearestEven_bounds h
  have hexact := rankOfRatio_mul_add h hrest
  have hrounded := rankOfRatio_roundTo53 h s
  have hrank : (ofNat (roundTo53 n * 2 ^ s)).rank = rankOfRatio (roundTo53 n * 2 ^ s) 1 :=
    rank_ofRatio false _ 1
  rw [isRounded_ofNat_iff, isLowMidpoint_iff h, ← Nat.not_lt, hfinite, and_assoc, hrank]
  by_cases hlost : 2 * (n % 2 ^ (n.log2 - 52)) = 2 ^ (n.log2 - 52) ∧
      n / 2 ^ (n.log2 - 52) % 2 = 0 ∧ rest ≠ 0
  · rw [if_pos hlost] at hexact
    -- a midpoint over an even neighbour goes down to it, which is not the last of its binade
    have hdown : nearestEven n (2 ^ (n.log2 - 52)) < 2 ^ 53 := by
      have hlt := div_pow_log2_lt n
      have heq : nearestEven n (2 ^ (n.log2 - 52)) = n / 2 ^ (n.log2 - 52) := by
        rw [nearestEven, if_neg (by omega), if_neg (by omega), hlost.2.1, Nat.add_zero]
      rw [heq]
      exact hlt
    obtain ⟨m, hm⟩ : ∃ m, m = (n.log2 + s + 1022) * ranksPerShift +
        nearestEven n (2 ^ (n.log2 - 52)) := ⟨_, rfl⟩
    have hbelow (hlt : n.log2 + s < 1024) : m + 1 ≤ infinityRank := by
      clear hfinite
      simp only [hm, ranksPerShift, infinityRank]
      omega
    have habove (hge : ¬ n.log2 + s < 1024) : infinityRank ≤ m := by
      clear hfinite
      simp only [hm, ranksPerShift, infinityRank]
      omega
    rw [← Nat.add_assoc, ← hm] at hexact
    rw [← hm] at hrounded
    rw [hrounded, hexact]
    refine ⟨⟨fun heq _ hlt => ?_, fun hge => ?_⟩, fun _ hlt => ?_⟩
    · have hle := hbelow hlt
      rw [Nat.min_eq_right hle, Nat.min_eq_right (Nat.le_of_succ_le hle)] at heq
      exact Nat.ne_of_lt (Nat.lt_succ_self m) heq
    · have hle := habove (hge hlost)
      rw [Nat.min_eq_left hle, Nat.min_eq_left (Nat.le_succ_of_le hle)]
    · have hle := hbelow hlt
      have hround := isRounded_ofNat (n * 2 ^ s + rest)
      rw [ofNat, ofRatio, hexact, Nat.min_eq_right hle] at hround
      rwa [Nat.min_eq_right (Nat.le_of_succ_le hle)]
  · rw [if_neg hlost, Nat.add_zero] at hexact
    rw [hrounded, hexact]
    exact ⟨⟨fun _ h => absurd h hlost, fun _ => rfl⟩, fun h => absurd h hlost⟩

/-- **What digits of a radix are rounded to.** The number is the nearest exactly if nothing is lost,
or if the number is infinite anyway; else the nearest number is the next one above it. -/
theorem isRounded_roundDigits (hk : 1 ≤ k) (hvalues : ∀ d ∈ values, d < 2 ^ k) :
    (IsRounded false (wholeNumber (2 ^ k) values) (ofNat (roundDigits (2 ^ k) 0 values)) ↔
      (IsLost (2 ^ k) values → 2 ^ 1024 ≤ wholeNumber (2 ^ k) values)) ∧
    (IsLost (2 ^ k) values → wholeNumber (2 ^ k) values < 2 ^ 1024 →
      IsRounded false (wholeNumber (2 ^ k) values)
        (ofRank false ((ofNat (roundDigits (2 ^ k) 0 values)).rank + 1))) := by
  have hradix : 1 < 2 ^ k := Nat.one_lt_two_pow (by omega)
  rcases Nat.lt_or_ge (wholeNumber (2 ^ k) values) (2 ^ 53) with hsmall | hlarge
  · have hkept : ¬ IsLost (2 ^ k) values := by
      rintro ⟨lead, tail, rfl, hmid, -⟩
      have hle := wholeNumber_le_append (Nat.two_pow_pos k) lead tail
      have := hmid.le
      omega
    rw [roundDigits_of_lt (Nat.two_pow_pos k) hsmall]
    exact ⟨⟨fun _ h => absurd h hkept, fun _ => isRounded_ofNat _⟩, fun h => absurd h hkept⟩
  · obtain ⟨lead, tail, rfl, hlong, hround, hshort⟩ := exists_lead (Nat.two_pow_pos k) hlarge
    have htail : ∀ d ∈ tail, d < 2 ^ k := fun d hd => hvalues d (List.mem_append_right lead hd)
    have hlost := isLost_append_iff hvalues hk hlong hshort
    have hvalue := wholeNumber_append (2 ^ k) lead tail
    have hrest := wholeNumber_lt hradix htail
    have hfinal : roundDigits (2 ^ k) 0 (lead ++ tail) =
        roundTo53 (wholeNumber (2 ^ k) lead) * (2 ^ k) ^ tail.length := by
      rw [← roundDigits_of_isCoarse (isCoarse_roundTo53 hlong) htail, ← hround]
      exact List.foldl_append
    rw [← Nat.pow_mul] at hvalue hrest hfinal
    rw [hlost, hfinal, hvalue]
    exact isRounded_scaled hlong hrest

end Binary64

/-! ### Texts of digits -/

variable {ds : List Char}

theorem mapM_digitValue?_eq_some_iff :
    ds.mapM (fun c => (digitValue? c).filter (· < radix)) = some values ↔
      HaveValues radix ds values := by
  induction ds generalizing values with
  | nil =>
    rw [List.mapM_nil, HaveValues, List.forall₂_nil_left_iff]
    exact Option.some_inj.trans eq_comm
  | cons c ds ih =>
    rw [List.mapM_cons, HaveValues, List.forall₂_cons_left_iff]
    simp only [bind, Option.bind_eq_some_iff, pure, Option.some_inj, Option.filter_eq_some_iff,
      decide_eq_true_eq, ih]
    constructor
    · rintro ⟨d, hd, rest, hrest, rfl⟩
      exact ⟨d, rest, hd, hrest, rfl⟩
    · rintro ⟨d, rest, hd, hrest, rfl⟩
      exact ⟨d, hd, rest, hrest, rfl⟩

theorem HaveValues.lt (h : HaveValues radix ds values) : ∀ d ∈ values, d < radix := by
  induction h with
  | nil => exact fun d hd => absurd hd List.not_mem_nil
  | cons hd _ ih =>
    intro e he
    rcases List.mem_cons.mp he with rfl | he
    · exact hd.2
    · exact ih e he

theorem HaveValues.exists_value (h : HaveValues radix ds values) {c : Char} (hc : c ∈ ds) :
    ∃ d, digitValue? c = some d := by
  induction h with
  | nil => exact absurd hc List.not_mem_nil
  | cons hd _ ih =>
    rcases List.mem_cons.mp hc with rfl | hc
    · exact ⟨_, hd.1⟩
    · exact ih hc

/-- Digits of a radix denote what they are rounded to one at a time. -/
theorem radixNumber_eq (hne : ds ≠ []) (h : HaveValues radix ds values) :
    radixNumber radix ds = .ofNat (roundDigits radix 0 values) := by
  rw [radixNumber, if_neg hne, mapM_digitValue?_eq_some_iff.mpr h]
  rfl

/-- Only digits of the radix, one at least, denote a number. -/
theorem isNaN_radixNumber_iff :
    (radixNumber radix ds).isNaN = false ↔ ds ≠ [] ∧ ∃ values, HaveValues radix ds values := by
  constructor
  · intro h
    by_cases hne : ds = []
    · rw [radixNumber, if_pos hne] at h
      exact absurd h (by decide)
    · refine ⟨hne, ?_⟩
      cases hvalues : ds.mapM (fun c => (digitValue? c).filter (· < radix)) with
      | some values => exact ⟨values, mapM_digitValue?_eq_some_iff.mp hvalues⟩
      | none =>
        rw [radixNumber, if_neg hne, hvalues] at h
        have hnan : Binary64.nan.isNaN = false := h
        exact absurd hnan (by decide)
  · rintro ⟨hne, values, hvalues⟩
    rw [radixNumber_eq hne hvalues]
    exact (Binary64.isRounded_ofNat _).isNaN

end Conditions
