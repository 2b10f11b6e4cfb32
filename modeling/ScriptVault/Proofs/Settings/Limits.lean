import Mathlib
import ScriptVault.Host.Session
import ScriptVault.Settings.Read

/-!
# Limits — what accepted settings ask of time and of the pools

Settings are accepted with every time that is finite and not below zero and with pools of every size.  A time lasts
less than `2 ^ 64` seconds, and a pool lets less than `2 ^ 61` pieces of work run side by side: below these bounds
accepted settings always give a limit for imports, the nearest nanosecond, and a host; from them on they give none.
-/

namespace ScriptVault

namespace Decimal

open Float.Model Float.Model.UnpackedFloat

/-! ### Whole factors and powers of two -/

theorem toNat_unpackMantissa (bits : BitVec 64) :
    (@unpackMantissa Format.binary64 bits).toNat = bits.toNat % 2 ^ 52 := by
  simp [unpackMantissa, BitVec.extractLsb]

theorem toNat_unpackExponent (bits : BitVec 64) :
    (@unpackExponent Format.binary64 bits).toNat = bits.toNat / 2 ^ 52 % 2 ^ 11 := by
  simp [unpackExponent, BitVec.extractLsb, Nat.shiftRight_eq_div_pow]

theorem toNat_leading (m : BitVec 52) : (1#1 ++ m).toNat = 2 ^ 52 + m.toNat := by
  rw [BitVec.toNat_append, ← Nat.shiftLeft_add_eq_or_of_lt m.isLt]
  rfl

theorem ofFloat_eq (x : Float) :
    Binary.ofFloat x =
      if @unpackExponent Format.binary64 x.toModel.toBits.toBitVec = 0#_ then
        ⟨(@unpackMantissa Format.binary64 x.toModel.toBits.toBitVec).toNat, -1074⟩
      else ⟨2 ^ 52 + (@unpackMantissa Format.binary64 x.toModel.toBits.toBitVec).toNat,
        ((@unpackExponent Format.binary64 x.toModel.toBits.toBitVec).toNat : Int) - 1075⟩ := by
  unfold Binary.ofFloat
  simp only [← BitVec.toNat_inj, toNat_unpackMantissa, toNat_unpackExponent]
  rfl

/-- A finite number other than zero is its whole factor and its power of two. -/
theorem ofFloat_of_finite {x : Float} {sign : Sign} {m : Nat} {q : Int} {hm : 0 < m}
    (hx : x.toModel.unpack = .finite sign m q hm) : Binary.ofFloat x = ⟨m, q⟩ := by
  rw [ofFloat_eq]
  simp only [Float.Model.unpack, UnpackedFloat.unpack] at hx
  split at hx
  · split at hx <;> cases hx
  · split at hx
    · next hexponent =>
      split at hx
      · cases hx
      · cases hx
        rw [if_pos hexponent, hexponent]
        rfl
    · next hexponent =>
      cases hx
      rw [if_neg hexponent, toNat_leading]
      rfl

theorem ofFloat_of_zero {x : Float} {sign : Sign} (hx : x.toModel.unpack = .zero sign) :
    (Binary.ofFloat x).m = 0 := by
  rw [ofFloat_eq]
  simp only [Float.Model.unpack, UnpackedFloat.unpack] at hx
  split at hx
  · split at hx <;> cases hx
  · split at hx
    · next hexponent =>
      split at hx
      · next hmantissa => rw [if_pos hexponent, hmantissa]; rfl
      · cases hx
    · cases hx

theorem ofFloat_lt (x : Float) : (Binary.ofFloat x).m < 2 ^ 53 := by
  have hmantissa := (@unpackMantissa Format.binary64 x.toModel.toBits.toBitVec).isLt
  rw [ofFloat_eq]
  split <;> simp only at hmantissa ⊢ <;> omega

/-! ### Units -/

/-- The exact magnitude. -/
def Binary.value (b : Binary) : ℚ := b.m * 2 ^ b.q

theorem Binary.value_nonneg (b : Binary) : 0 ≤ b.value := by
  unfold value
  positivity

theorem ratio_pos (k : Nat) (e : Int) : 0 < (ratio k e).2 := by
  cases e <;> simp [ratio]

theorem ratio_value (k : Nat) (e : Int) : ((ratio k e).1 : ℚ) / (ratio k e).2 = k * 2 ^ e := by
  cases e with
  | ofNat n => simp [ratio]
  | negSucc n => simp [ratio, zpow_negSucc, div_eq_mul_inv]

/-- The rounded quotient is off by half at most. -/
theorem abs_roundHalfEven_sub_le (num : Nat) {den : Nat} (hden : 0 < den) :
    |(roundHalfEven num den : ℚ) - num / den| ≤ 1 / 2 := by
  have hpos : (0 : ℚ) < den := by exact_mod_cast hden
  have hsplit : (num : ℚ) / den = (num / den : Nat) + (num % den : Nat) / den := by
    rw [eq_comm, add_div' _ _ _ hpos.ne']
    exact_mod_cast congrArg (fun n : Nat => (n : ℚ) / den) (Nat.div_add_mod' num den)
  have hrest : ((num % den : Nat) : ℚ) / den < 1 := by
    rw [div_lt_one hpos]
    exact_mod_cast Nat.mod_lt num hden
  have hrest' : (0 : ℚ) ≤ ((num % den : Nat) : ℚ) / den := by positivity
  rw [hsplit, roundHalfEven, abs_le]
  split
  · next hdown =>
    have hhalf : 2 * (num % den) ≤ den := by
      simp only [Bool.or_eq_true, decide_eq_true_eq, Bool.and_eq_true, beq_iff_eq] at hdown
      omega
    have : ((num % den : Nat) : ℚ) / den ≤ 1 / 2 := by
      rw [div_le_div_iff₀ hpos two_pos]
      exact_mod_cast (by omega : num % den * 2 ≤ 1 * den)
    constructor <;> linarith
  · next hup =>
    have hhalf : den ≤ 2 * (num % den) := by
      simp only [Bool.or_eq_true, decide_eq_true_eq, Bool.and_eq_true, beq_iff_eq] at hup
      omega
    have : (1 : ℚ) / 2 ≤ ((num % den : Nat) : ℚ) / den := by
      rw [div_le_div_iff₀ two_pos hpos]
      exact_mod_cast (by omega : 1 * den ≤ num % den * 2)
    push_cast
    constructor <;> linarith

theorem roundHalfEven_one (num : Nat) : roundHalfEven num 1 = num := by
  simp [roundHalfEven, Nat.mod_one]

/-- The units of a number are the nearest whole number of them. -/
theorem abs_unitsOf_sub_le (x : Float) (perUnit : Nat) :
    |(unitsOf x perUnit : ℚ) - (Binary.ofFloat x).value * perUnit| ≤ 1 / 2 := by
  have hnear := abs_roundHalfEven_sub_le ((ratio (Binary.ofFloat x).m (Binary.ofFloat x).q).1 * perUnit)
    (ratio_pos (Binary.ofFloat x).m (Binary.ofFloat x).q)
  rwa [Nat.cast_mul, mul_div_right_comm, ratio_value] at hnear

/-- Whole numbers have a whole number of units. -/
theorem unitsOf_of_whole {x : Float} (hwhole : 0 ≤ (Binary.ofFloat x).q) (perUnit : Nat) :
    (unitsOf x perUnit : ℚ) = (Binary.ofFloat x).value * perUnit := by
  unfold unitsOf Binary.value
  obtain ⟨n, hn⟩ := Int.eq_ofNat_of_zero_le hwhole
  simp only [hn]
  rw [show ratio (Binary.ofFloat x).m n = ((Binary.ofFloat x).m * 2 ^ n, 1) from rfl, roundHalfEven_one]
  push_cast
  rw [zpow_natCast]

theorem unpack_zero : (0.0 : Float).toModel.unpack = .zero .positive := rfl

theorem lt_iff_unpack {x y : Float} : x < y ↔ UnpackedFloat.lt x.toModel.unpack y.toModel.unpack = true :=
  decide_eq_true_iff

/-- A finite number that is not below zero is above zero exactly if its magnitude is. -/
theorem pos_iff_value_pos {x : Float} (hfinite : x.isFinite = true) (hbelow : ¬ x < 0.0) :
    0.0 < x ↔ 0 < (Binary.ofFloat x).value := by
  rw [lt_iff_unpack, unpack_zero] at hbelow ⊢
  have hnumber : x.toModel.unpack.isFinite = true := hfinite
  cases hunpack : x.toModel.unpack with
  | notANumber | infinity sign => rw [hunpack] at hnumber; cases hnumber
  | zero sign =>
    rw [Binary.value, ofFloat_of_zero hunpack]
    simp [UnpackedFloat.lt, UnpackedFloat.compare]
  | finite sign m q hm =>
    cases sign with
    | negative => rw [hunpack] at hbelow; exact absurd rfl hbelow
    | positive =>
      rw [ofFloat_of_finite hunpack]
      have hvalue : (0 : ℚ) < m * 2 ^ q := mul_pos (by exact_mod_cast hm) (zpow_pos two_pos q)
      exact iff_of_true rfl hvalue

/-- A number with places after the point is below `2 ^ 53`. -/
theorem value_lt_of_places {x : Float} (hplaces : (Binary.ofFloat x).q < 0) : (Binary.ofFloat x).value < 2 ^ 53 := by
  have hm : ((Binary.ofFloat x).m : ℚ) < 2 ^ 53 := by exact_mod_cast ofFloat_lt x
  have hq : (2 : ℚ) ^ (Binary.ofFloat x).q ≤ 1 := zpow_le_one_of_nonpos₀ one_le_two hplaces.le
  exact lt_of_le_of_lt (mul_le_of_le_one_right (Nat.cast_nonneg _) hq) hm

end Decimal

namespace Settings

open Decimal

/-! ### Times -/

theorem of_time {x : Float} {nanos : Nat} (htime : time? x = some nanos) : unitsOf x nanosPerSecond = nanos := by
  dsimp only [time?] at htime
  split at htime
  · exact Option.some.inj htime
  · cases htime

/-- There is no time from `2 ^ 64` seconds on. -/
theorem time_eq_none_iff (x : Float) : time? x = none ↔ 2 ^ 64 ≤ (Binary.ofFloat x).value := by
  have hlimit : time? x = none ↔ (2 ^ 64 * nanosPerSecond : ℚ) ≤ unitsOf x nanosPerSecond := by
    rw [time?, secondsEnd]
    split
    · next hless => simpa using (by exact_mod_cast hless : (unitsOf x nanosPerSecond : ℚ) < 2 ^ 64 * nanosPerSecond)
    · next hmore => simpa using (by exact_mod_cast not_lt.1 hmore : (2 ^ 64 * nanosPerSecond : ℚ) ≤ _)
  have hnanos : (nanosPerSecond : ℚ) = 10 ^ 9 := by norm_num [nanosPerSecond]
  rw [hlimit]
  by_cases hwhole : 0 ≤ (Binary.ofFloat x).q
  · rw [unitsOf_of_whole hwhole]
    exact mul_le_mul_iff_left₀ (by rw [hnanos]; positivity)
  · -- both fail: a number with places is far below
    have hlt := value_lt_of_places (not_le.1 hwhole)
    have hnear := abs_unitsOf_sub_le x nanosPerSecond
    rw [abs_le, hnanos] at hnear
    rw [hnanos]
    constructor
    · intro hle
      linarith [hnear.2]
    · intro hle
      linarith

/-! ### Accepted settings -/

variable {s : Settings}

/-- The seconds that an import may take, exactly. -/
def exactTimeout (s : Settings) : ℚ := (Binary.ofFloat s.importTimeout).value

theorem of_check (hcheck : s.check = .ok ()) :
    isDuration s.importTimeout = true ∧ ∃ rules, s.rules = .ok rules := by
  unfold check at hcheck
  cases hname : s.requireName.isEmpty with
  | true => rw [hname] at hcheck; cases hcheck
  | false =>
    cases hduration : isDuration s.importTimeout with
    | false => rw [hname, hduration] at hcheck; cases hcheck
    | true =>
      cases hrules : s.rules with
      | error failure => rw [hname, hduration, hrules] at hcheck; cases hcheck
      | ok rules => exact ⟨rfl, rules, rfl⟩

/-- What is read from a text is accepted. -/
theorem check_of_read {text : String} (hread : Settings.read text = .ok s) : s.check = .ok () := by
  unfold Settings.read at hread
  split at hread
  · cases hread
  · next settings _ =>
    cases hcheck : settings.check with
    | error failure => rw [hcheck] at hread; cases hread
    | ok done =>
      rw [hcheck] at hread
      cases hread
      exact hcheck

/-- Imports are without a limit for no seconds only. -/
theorem importLimit_cases (hduration : isDuration s.importTimeout = true) :
    s.exactTimeout = 0 ∧ s.importLimit? = some none ∧ s.importNanos? = none ∨
      0 < s.exactTimeout ∧ s.importLimit? = (time? s.importTimeout).map some ∧
        s.importNanos? = some (unitsOf s.importTimeout nanosPerSecond) := by
  simp only [isDuration, Bool.and_eq_true, Bool.not_eq_true', decide_eq_false_iff_not] at hduration
  have hpos := pos_iff_value_pos hduration.1 hduration.2
  rw [importLimit?, importNanos?]
  split
  · next hlimited => exact .inr ⟨hpos.1 hlimited, rfl, rfl⟩
  · next hnone => exact .inl ⟨le_antisymm (not_lt.1 fun h => hnone (hpos.2 h)) (Binary.value_nonneg _), rfl, rfl⟩

end Settings

/-! ### Pools -/

/-- There is no pool for `2 ^ 61` pieces of work and more. -/
theorem Host.pool_eq (size : Nat) : Host.pool? size = if 2 ^ 61 ≤ size then none else some (max 1 size) := by
  have hbound : max 1 size ≤ Host.poolLimit ↔ ¬ 2 ^ 61 ≤ size := by
    rw [Host.poolLimit]
    omega
  simp only [Host.pool?, hbound, ite_not]

namespace Session

variable {ev : Evaluator} {parts : Host.Parts}

/-- A host that is built can be made unless a pool is too large. -/
theorem launch_of_build {session : Session} (hbuild : build ev parts = .ok session) :
    launch? ev parts =
      if 2 ^ 61 ≤ parts.settings.workerThreads ∨ 2 ^ 61 ≤ parts.settings.fetchConcurrency then none
      else some (.ok session) := by
  unfold build at hbuild
  cases hhost : Host.build parts with
  | error failure => rw [hhost] at hbuild; cases hbuild
  | ok host =>
    rw [hhost] at hbuild
    cases hbuild
    simp only [launch?, hhost, Host.pool_eq]
    by_cases hworkers : 2 ^ 61 ≤ parts.settings.workerThreads <;>
      by_cases hfetch : 2 ^ 61 ≤ parts.settings.fetchConcurrency <;> simp only [hworkers, hfetch] <;> rfl

/-- A host is built with accepted settings. -/
theorem build_of_check (ev : Evaluator) (hcheck : parts.settings.check = .ok ()) :
    ∃ session, build ev parts = .ok session := by
  obtain ⟨-, rules, hrules⟩ := Settings.of_check hcheck
  unfold build Host.build
  rw [hcheck, hrules]
  exact ⟨_, rfl⟩

end Session

namespace Settings

open Decimal

/-- Accepted settings, such as those that are read from a text, give a limit for imports unless they ask for `2 ^ 64`
seconds or more: none for no seconds, and else the nearest nanosecond.  They make a host unless a pool is to let
`2 ^ 61` pieces of work or more run side by side. -/
theorem accepted_settings_usable {s : Settings}
    (haccepted : s.check = .ok () ∨ ∃ text, Settings.read text = .ok s) :
    (s.importLimit? = none ↔ 2 ^ 64 ≤ s.exactTimeout) ∧
      (∀ limit, s.importLimit? = some limit → limit = s.importNanos? ∧ (limit = none ↔ s.exactTimeout = 0) ∧
        ∀ nanos ∈ limit, |(nanos : ℚ) - s.exactTimeout * nanosPerSecond| ≤ 1 / 2) ∧
      ∀ (ev : Evaluator) (parts : Host.Parts), parts.settings = s →
        ∃ session, Session.build ev parts = .ok session ∧ Session.launch? ev parts =
          if 2 ^ 61 ≤ s.workerThreads ∨ 2 ^ 61 ≤ s.fetchConcurrency then none else some (.ok session) := by
  have hcheck : s.check = .ok () := haccepted.elim id fun ⟨_, hread⟩ => check_of_read hread
  refine ⟨?_, fun limit hlimit => ?_, fun ev parts hparts => ?_⟩
  · obtain ⟨hzero, hnone, -⟩ | ⟨-, hsome, -⟩ := importLimit_cases (of_check hcheck).1
    · rw [hnone, hzero]
      exact iff_of_false nofun (by norm_num)
    · rw [hsome, Option.map_eq_none_iff, time_eq_none_iff, exactTimeout]
  · obtain ⟨hzero, hnone, hnanos⟩ | ⟨hpos, hsome, hnanos⟩ := importLimit_cases (of_check hcheck).1
    · obtain rfl : none = limit := Option.some.inj (hnone.symm.trans hlimit)
      exact ⟨hnanos.symm, iff_of_true rfl hzero, nofun⟩
    · obtain ⟨nanos, htime, rfl⟩ := Option.map_eq_some_iff.1 (hsome.symm.trans hlimit)
      obtain rfl : unitsOf s.importTimeout nanosPerSecond = nanos := of_time htime
      refine ⟨hnanos.symm, iff_of_false nofun hpos.ne', fun nanos hn => ?_⟩
      obtain rfl := Option.mem_some_iff.1 hn
      exact abs_unitsOf_sub_le _ _
  · subst hparts
    obtain ⟨session, hbuild⟩ := Session.build_of_check ev hcheck
    exact ⟨session, hbuild, Session.launch_of_build hbuild⟩

/-- Settings of half a second and eight workers. -/
def halfSecond : String := "import_timeout = 0.5\nworker_threads = 8\n"

/-- They give a limit and make a host. -/
theorem accepted_settings_usable_halfSecond : ∃ s, Settings.read halfSecond = .ok s ∧
    s.importLimit? = some (some 500000000) ∧ ∀ (ev : Evaluator) (parts : Host.Parts), parts.settings = s →
      ∃ session, Session.launch? ev parts = some (.ok session) := by
  have hread : (Settings.read halfSecond).toOption.map
      (fun s => (Binary.ofFloat s.importTimeout, s.importNanos?, s.workerThreads, s.fetchConcurrency)) =
        some (⟨2 ^ 52, -53⟩, some 500000000, 8, 4) := by decide +kernel
  cases hs : Settings.read halfSecond with
  | error failure => rw [hs] at hread; cases hread
  | ok s =>
    rw [hs] at hread
    simp only [Except.toOption, Option.map_some, Option.some.injEq, Prod.mk.injEq] at hread
    obtain ⟨hvalue, hnanos, hworkers, hfetch⟩ := hread
    obtain ⟨hnone, hlimit, hhost⟩ := accepted_settings_usable (.inr ⟨halfSecond, hs⟩)
    refine ⟨s, rfl, ?_, fun ev parts hparts => ?_⟩
    · cases htime : s.importLimit? with
      | none =>
        have hlong := hnone.1 htime
        rw [exactTimeout, hvalue, Binary.value] at hlong
        norm_num at hlong
      | some limit => rw [(hlimit limit htime).1, hnanos]
    · obtain ⟨session, -, hlaunch⟩ := hhost ev parts hparts
      rw [hworkers, hfetch] at hlaunch
      exact ⟨session, hlaunch⟩

/-- A text that asks for more seconds than a time can last is accepted all the same. -/
theorem accepted_settings_usable_forever : ¬ ∀ text s, Settings.read text = .ok s → s.importLimit? ≠ none ∧
    ∀ (ev : Evaluator) (parts : Host.Parts), parts.settings = s → Session.launch? ev parts ≠ none := by
  intro hall
  have hread : (Settings.read "import_timeout = 1e20").toOption.map (·.importLimit?) = some none := by decide +kernel
  cases hs : Settings.read "import_timeout = 1e20" with
  | error failure => rw [hs] at hread; cases hread
  | ok s =>
    rw [hs] at hread
    exact (hall _ s hs).1 (Option.some.inj hread)

end Settings

end ScriptVault
