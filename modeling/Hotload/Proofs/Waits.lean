import Hotload.Proofs.Binary64.Decimal
import Hotload.Proofs.CommandLine.Start
import Hotload.Proofs.Settings
import Hotload.Proofs.Toolchain.Vigil
import Hotload.Waits

/-!
Which waits can be made. Rounding keeps the order of numbers, and the longest wait, a quarter of it and the same in
milliseconds are numbers themselves, so what is computed is a wait just if what it stands for is at most the longest one.
A command that starts a library only takes a delay within the limit; a build that watches takes any delay that the settings
allow, and both take any poll interval.
-/
namespace Hotload

namespace Binary64

variable {x : Binary64} {num den n m : Nat} {negative : Bool}

theorem value_eq (x : Binary64) : x.value = x.significand * 2 ^ x.exponent := rfl

theorem nearest_le (hd : 0 < den) (h : (num : ℚ) / den ≤ valueAt m) : (nearest negative num den).magnitude ≤ m := by
  obtain ⟨n, hn, hr⟩ := nearestMagnitude_spec num hd
  rw [nearest, hn, magnitude_ofMagnitude ((Nat.min_le_left ..).trans_lt infiniteMagnitude_lt)]
  exact (Nat.min_le_right ..).trans (hr.ge_of_le_valueAt h)

theorem le_nearest (hd : 0 < den) (hm : m ≤ infiniteMagnitude) (h : valueAt m ≤ (num : ℚ) / den) :
    m ≤ (nearest negative num den).magnitude := by
  obtain ⟨n, hn, hr⟩ := nearestMagnitude_spec num hd
  rw [nearest, hn, magnitude_ofMagnitude ((Nat.min_le_left ..).trans_lt infiniteMagnitude_lt)]
  exact Nat.le_min.2 ⟨hm, hr.le_of_valueAt_le h⟩

theorem isNegative_nearest (negative : Bool) (num : Nat) (hd : 0 < den) : (nearest negative num den).isNegative = negative := by
  obtain ⟨n, hn, -⟩ := nearestMagnitude_spec num hd
  rw [nearest, hn, isNegative_ofMagnitude ((Nat.min_le_left ..).trans_lt infiniteMagnitude_lt)]

/-- A quotient is one of natural numbers, rounded once. -/
theorem quotient_eq (x : Binary64) (hn : 0 < n) :
    ∃ num den, 0 < den ∧ x.quotient n = nearest x.isNegative num den ∧ (num : ℚ) / den = x.value / n := by
  unfold quotient
  dsimp only
  split
  · next h =>
    obtain ⟨i, hi⟩ := Int.eq_ofNat_of_zero_le h
    refine ⟨_, _, hn, rfl, ?_⟩
    rw [value_eq, hi, Int.toNat_natCast, pow2_eq, zpow_natCast]
    push_cast
    rfl
  · next h =>
    obtain ⟨i, hi⟩ : ∃ i : Nat, x.exponent = -i := ⟨(-x.exponent).toNat, by omega⟩
    refine ⟨_, _, Nat.mul_pos (Nat.two_pow_pos _) hn, rfl, ?_⟩
    rw [value_eq, hi, neg_neg, Int.toNat_natCast, zpow_neg, zpow_natCast]
    push_cast
    field_simp

theorem times_eq (hx : x.isFinite = true) (n : Nat) :
    ∃ num den, 0 < den ∧ x.times n = nearest x.isNegative num den ∧ (num : ℚ) / den = x.value * n := by
  unfold times
  rw [if_pos hx]
  dsimp only
  split
  · next h =>
    obtain ⟨i, hi⟩ := Int.eq_ofNat_of_zero_le h
    refine ⟨_, 1, Nat.one_pos, rfl, ?_⟩
    rw [value_eq, hi, Int.toNat_natCast, pow2_eq, zpow_natCast]
    push_cast
    ring
  · next h =>
    obtain ⟨i, hi⟩ : ∃ i : Nat, x.exponent = -i := ⟨(-x.exponent).toNat, by omega⟩
    refine ⟨_, _, Nat.two_pow_pos _, rfl, ?_⟩
    rw [value_eq, hi, neg_neg, Int.toNat_natCast, zpow_neg, zpow_natCast]
    push_cast
    field_simp

end Binary64

open Binary64

namespace Waits

/-- The magnitude of the longest wait, of the milliseconds in it, and of its quarter. -/
def limit : Nat := 1055 * 2 ^ 52 + 9223372036 * 2 ^ 19

def milliLimit : Nat := 1065 * 2 ^ 52 + 9223372036000 * 2 ^ 9

def quarterLimit : Nat := 1053 * 2 ^ 52 + 9223372036 * 2 ^ 19

theorem valueAt_limit : valueAt limit = longest ∧ valueAt (limit + 1) = longest + 1 / 2 ^ 19 := by
  obtain ⟨hv, hg⟩ := valueAt_eq (k := 1055) (j := 9223372036 * 2 ^ 19) (by norm_num) (by norm_num)
  have hlimit : valueAt limit = longest := by
    rw [limit, hv, longest]
    norm_num
  refine ⟨hlimit, ?_⟩
  rw [valueAt_succ, hlimit, limit, hg]
  norm_num

theorem valueAt_quarterLimit : valueAt quarterLimit = longest / 4 ∧ valueAt (quarterLimit + 1) = longest / 4 + 1 / 2 ^ 21 := by
  obtain ⟨hv, hg⟩ := valueAt_eq (k := 1053) (j := 9223372036 * 2 ^ 19) (by norm_num) (by norm_num)
  have hlimit : valueAt quarterLimit = longest / 4 := by
    rw [quarterLimit, hv, longest]
    norm_num
  refine ⟨hlimit, ?_⟩
  rw [valueAt_succ, hlimit, quarterLimit, hg]
  norm_num

/-- The longest delay and the one after it are numbers. -/
theorem valueAt_milliLimit :
    valueAt milliLimit = Delay.limit ∧ valueAt (milliLimit + 2 ^ 9) = (Delay.limit + 1 : Nat) := by
  obtain ⟨hv, -⟩ := valueAt_eq (k := 1065) (j := 9223372036000 * 2 ^ 9) (by norm_num) (by norm_num)
  obtain ⟨hv', -⟩ := valueAt_eq (k := 1065) (j := 9223372036001 * 2 ^ 9) (by norm_num) (by norm_num)
  constructor
  · rw [milliLimit, hv, Delay.limit]
    norm_num
  · rw [show milliLimit + 2 ^ 9 = 1065 * 2 ^ 52 + 9223372036001 * 2 ^ 9 by norm_num [milliLimit], hv', Delay.limit]
    norm_num

theorem limit_lt : limit + 1 < infiniteMagnitude ∧ milliLimit + 2 ^ 9 < infiniteMagnitude := by
  decide

variable {x : Binary64} {delay : Int}

/-- Up to the longest wait there are only finite numbers. -/
theorem isTimeout_iff : IsTimeout x ↔ (x.isNegative = true → x.isZero = true) ∧ x.magnitude ≤ limit := by
  have hle : x.value ≤ longest ↔ x.magnitude ≤ limit := by
    rw [← valueAt_limit.1]
    exact valueAt_strictMono.le_iff_le
  constructor
  · intro h
    exact ⟨h.nonneg, hle.1 h.le⟩
  · rintro ⟨hneg, hlimit⟩
    have := limit_lt.1
    exact ⟨isFinite_iff.2 (by omega), hneg, hle.2 hlimit⟩

theorem ofInt_eq (h0 : 0 ≤ delay) : ofInt delay = nearest false delay.natAbs 1 ∧ (delay.natAbs : ℚ) / (1 : Nat) = delay := by
  constructor
  · rw [ofInt, decide_eq_false (not_lt.2 h0)]
  · rw [Nat.cast_one, div_one, Nat.cast_natAbs, abs_of_nonneg h0]

/-- The seconds of a delay can be computed unless the delay is rounded to infinity. -/
theorem seconds_ok_iff (h0 : 0 ≤ delay) :
    (∃ t, Delay.seconds delay = .ok t) ↔ (delay : ℚ) < 2 ^ 1024 - 2 ^ 970 := by
  obtain ⟨hint, hvalue⟩ := ofInt_eq h0
  obtain ⟨n, hn, hr⟩ := nearestMagnitude_spec delay.natAbs Nat.one_pos
  rw [hvalue] at hr
  rw [← rounds_finite_iff hr]
  have hm : (ofInt delay).magnitude = min infiniteMagnitude n := by
    rw [hint, nearest, hn, magnitude_ofMagnitude ((Nat.min_le_left ..).trans_lt infiniteMagnitude_lt)]
  have hinf : (ofInt delay).isInfinite = true ↔ infiniteMagnitude ≤ n := by
    rw [isInfinite, hm, decide_eq_true_eq, min_eq_left_iff]
  rw [Delay.seconds]
  split
  · next h => simp [hinf.1 h]
  · next h => simpa using not_le.1 (mt hinf.2 h)

/-- A delay with more than 309 digits has no seconds. -/
theorem seconds_large {n : Nat} (hn : 309 ≤ n) (hd : delay = 10 ^ n) : Delay.seconds delay = .error .realTooLarge := by
  have h0 : 0 ≤ delay := hd ▸ by positivity
  have hlarge : ¬ ∃ t, Delay.seconds delay = .ok t := by
    rw [seconds_ok_iff h0, not_lt, hd, Int.cast_pow, Int.cast_ofNat]
    have hinfinite := valueAt_infinite_le
    rw [valueAt_infinite] at hinfinite
    have hpow : (10 : ℚ) ^ (309 : Int) ≤ 10 ^ n := by
      rw [← zpow_natCast]
      exact zpow_le_zpow_right₀ (by norm_num) (by exact_mod_cast hn)
    exact (sub_le_self _ (by positivity)).trans (hinfinite.trans hpow)
  rw [Delay.seconds] at hlarge ⊢
  split
  · rfl
  · next h => exact absurd ⟨_, if_neg h⟩ hlarge

theorem debounce_isTimeout_iff (h0 : 0 ≤ delay) :
    (∃ t, Delay.seconds delay = .ok t ∧ IsTimeout t) ↔ delay ≤ Delay.limit := by
  obtain ⟨hint, hvalue⟩ := ofInt_eq h0
  obtain ⟨num, den, hden, hquotient, hq⟩ := (ofInt delay).quotient_eq (n := 1000) (by norm_num)
  have hsign : (ofInt delay).isNegative = false := by rw [hint, isNegative_nearest _ _ Nat.one_pos]
  constructor
  · rintro ⟨t, ht, htimeout⟩
    by_contra hlt
    obtain rfl : t = (ofInt delay).quotient 1000 := by
      rw [Delay.seconds] at ht
      split at ht
      · cases ht
      · exact (Except.ok.inj ht).symm
    have hlarge : ((Delay.limit + 1 : Nat) : ℚ) ≤ delay := by exact_mod_cast Int.not_le.1 hlt
    have hm : milliLimit + 2 ^ 9 ≤ (ofInt delay).magnitude := by
      rw [hint]
      exact le_nearest Nat.one_pos limit_lt.2.le (by rw [hvalue, valueAt_milliLimit.2]; exact hlarge)
    have hv := valueAt_strictMono.monotone hm
    rw [valueAt_milliLimit.2, ← value] at hv
    have hbeyond : limit + 1 ≤ ((ofInt delay).quotient 1000).magnitude := by
      rw [hquotient]
      refine le_nearest hden limit_lt.1.le ?_
      rw [hq, valueAt_limit.2, longest]
      norm_num [Delay.limit] at hv ⊢
      linarith
    have := (isTimeout_iff.1 htimeout).2
    omega
  · intro hle
    have hsmall : (delay : ℚ) ≤ Delay.limit := by exact_mod_cast hle
    have hm : (ofInt delay).magnitude ≤ milliLimit := by
      rw [hint]
      exact nearest_le Nat.one_pos (by rw [hvalue, valueAt_milliLimit.1]; exact hsmall)
    have hv := valueAt_strictMono.monotone hm
    rw [valueAt_milliLimit.1, ← value] at hv
    have hfinite : (ofInt delay).isInfinite = false := by
      have := limit_lt.2
      simp only [isInfinite, decide_eq_false_iff_not]
      omega
    refine ⟨(ofInt delay).quotient 1000, by rw [Delay.seconds, hfinite]; rfl, isTimeout_iff.2 ⟨fun hneg => ?_, ?_⟩⟩
    · rw [hquotient, isNegative_nearest _ _ hden, hsign] at hneg
      cases hneg
    · rw [hquotient]
      refine nearest_le hden ?_
      rw [hq, valueAt_limit.1, longest]
      norm_num [Delay.limit] at hv ⊢
      linarith

theorem isNegative_of_isPositive (hx : x.isPositive = true) : x.isNegative = false := by
  simp only [isPositive, Bool.and_eq_true, Bool.not_eq_true'] at hx
  exact hx.1.2

/-- Four intervals can be waited for just if the interval is at most a quarter of the longest wait. -/
theorem isTimeout_times_iff (hx : x.isPositive = true) :
    IsTimeout (x.times 4) ↔ x.isFinite = true ∧ x.value ≤ longest / 4 := by
  have hsign := isNegative_of_isPositive hx
  by_cases hfinite : x.isFinite = true
  · obtain ⟨num, den, hden, htimes, hq⟩ := times_eq hfinite 4
    rw [htimes, isTimeout_iff, isNegative_nearest _ _ hden, hsign]
    constructor
    · rintro ⟨-, hle⟩
      refine ⟨hfinite, ?_⟩
      by_contra hlt
      have hm : quarterLimit + 1 ≤ x.magnitude := by
        rw [← valueAt_quarterLimit.1] at hlt
        exact valueAt_strictMono.lt_iff_lt.1 (not_le.1 hlt)
      have hv := valueAt_strictMono.monotone hm
      rw [valueAt_quarterLimit.2, ← value] at hv
      have hbeyond : limit + 1 ≤ (nearest false num den).magnitude := by
        refine le_nearest hden limit_lt.1.le ?_
        rw [hq, valueAt_limit.2]
        push_cast
        linarith
      omega
    · rintro ⟨-, hle⟩
      refine ⟨nofun, nearest_le hden ?_⟩
      rw [hq, valueAt_limit.1]
      push_cast
      linarith
  · rw [times, if_neg hfinite]
    constructor
    · intro h
      exact absurd h.finite hfinite
    · rintro ⟨h, -⟩
      exact absurd h hfinite

theorem isTimeout_iff_of_isPositive (hx : x.isPositive = true) : IsTimeout x ↔ x.isFinite = true ∧ x.value ≤ longest := by
  have hsign := isNegative_of_isPositive hx
  constructor
  · intro h
    exact ⟨h.finite, h.le⟩
  · rintro ⟨hfinite, hle⟩
    exact ⟨hfinite, fun hneg => absurd (hsign.symm.trans hneg) Bool.false_ne_true, hle⟩

theorem parse_ok {v : Value} (h : Delay.parse v = .ok delay) : 0 ≤ delay ∧ delay ≤ Delay.limit := by
  obtain ⟨n, -, h⟩ := Outcome.bind_ok h
  split at h
  · cases h
  · split at h
    · cases h
    · cases h
      omega

/-- The debouncer of a library that is started has an accepted delay, and its watcher the poll interval of the settings. -/
theorem startSession_waits {given : Option Toolchain} {library : String} {text : Option String} {h h' : Host} {s : Session}
    {settings : Settings} (hl : Settings.load h.platform.basis h.environment = .ok settings)
    (hs : CommandLine.startSession given library text h = (.ok s, h')) :
    (0 ≤ s.handle.debouncer.delay ∧ s.handle.debouncer.delay ≤ Delay.limit) ∧
      ∃ w, s.handle.working? = some w ∧ w.interval = settings.pollInterval := by
  obtain ⟨settings', h₁, hload, hs⟩ := Action.bind_ok hs
  rw [CommandLine.loadSettings_eq, hl] at hload
  cases hload
  obtain ⟨millis, h₂, hparse, hs⟩ := Action.bind_ok hs
  obtain ⟨t, h₃, -, hs⟩ := Action.bind_ok hs
  obtain ⟨handle, h₄, hspawn, hs⟩ := Action.bind_ok hs
  obtain ⟨k, content, m, -, hhandle⟩ := Handle.spawn_watching hspawn
  rw [Action.lift_eq] at hparse
  obtain ⟨_, _, -, hs⟩ := Action.bind_ok hs
  cases hs
  have hdelay : handle.debouncer.delay = millis := by rw [hhandle]; rfl
  rw [hdelay]
  exact ⟨parse_ok (congrArg Prod.fst hparse), _, by rw [hhandle]; rfl, rfl⟩

theorem watching_waits {d : Files.Disk} {manifest : Files.Path} {interval : Binary64} {g : Watching}
    (h : Watching.start d manifest interval delay = .ok g) :
    g.debouncer.delay = delay ∧ g.watcher.interval = interval := by
  unfold Watching.start Watcher.start at h
  cases hw : d.snapshot (External.watchPaths manifest) with
  | error f =>
    rw [hw] at h
    cases h
  | ok seen =>
    rw [hw] at h
    cases h
    exact ⟨rfl, rfl⟩

/-- Which waits of a library that is started, and of a build that watches, can be made. -/
theorem fit_iff {h : Host} {settings : Settings}
    (hl : Settings.load h.platform.basis h.environment = .ok settings) :
    (∀ given library delay s h', CommandLine.startSession given library delay h = (.ok s, h') →
      ∃ w, s.handle.working? = some w ∧ w.interval = settings.pollInterval ∧
        (∃ t, (of s.handle.debouncer w).debounce = .ok t ∧ IsTimeout t) ∧
        ((of s.handle.debouncer w).Fit ↔
          settings.pollInterval.isFinite = true ∧ settings.pollInterval.value ≤ longest / 4)) ∧
      (∀ loader x d manifest g, External.ofSettings settings loader = .ok x →
        Watching.start d manifest x.pollInterval x.debounce = .ok g →
        x.pollInterval = settings.pollInterval ∧ g.watcher.interval = settings.pollInterval ∧
        ((∃ t, (of g.debouncer g.watcher).debounce = .ok t) ↔ (settings.reloadDelay : ℚ) < 2 ^ 1024 - 2 ^ 970) ∧
        ((∃ t, (of g.debouncer g.watcher).debounce = .ok t ∧ IsTimeout t) ↔ settings.reloadDelay ≤ Delay.limit) ∧
        ((of g.debouncer g.watcher).Fit ↔ settings.reloadDelay ≤ Delay.limit ∧
          settings.pollInterval.isFinite = true ∧ settings.pollInterval.value ≤ longest / 4)) ∧
      (IsTimeout settings.pollInterval ↔
        settings.pollInterval.isFinite = true ∧ settings.pollInterval.value ≤ longest) := by
  have hpositive := (Settings.load_ok hl).positive
  have hnonneg := (Settings.load_ok hl).nonneg
  have hinterval := isTimeout_iff_of_isPositive hpositive
  have hjoin := isTimeout_times_iff hpositive
  -- four intervals take longer than one, so the join decides
  have hquarter : settings.pollInterval.value ≤ longest / 4 → settings.pollInterval.value ≤ longest := by
    intro h
    exact h.trans (by norm_num [longest])
  have hfit (d : Debouncer) {w : Watcher} (hw : w.interval = settings.pollInterval) : (of d w).Fit ↔
      (∃ t, Delay.seconds d.delay = .ok t ∧ IsTimeout t) ∧
        settings.pollInterval.isFinite = true ∧ settings.pollInterval.value ≤ longest / 4 := by
    constructor
    · intro h
      have hj := h.join
      rw [of, Watcher.patience, hw] at hj
      exact ⟨h.debounce, hjoin.1 hj⟩
    · rintro ⟨hdebounce, hfinite, hle⟩
      refine ⟨hdebounce, ?_, ?_⟩
      · rw [of, hw]
        exact hinterval.2 ⟨hfinite, hquarter hle⟩
      · rw [of, Watcher.patience, hw]
        exact hjoin.2 ⟨hfinite, hle⟩
  refine ⟨fun given library delay s h' hs => ?_, fun loader x d manifest g hx hg => ?_, hinterval⟩
  · obtain ⟨⟨h0, hle⟩, w, hworking, hw⟩ := startSession_waits hl hs
    have hdebounce := (debounce_isTimeout_iff h0).2 hle
    refine ⟨w, hworking, hw, hdebounce, (hfit _ hw).trans ?_⟩
    rw [and_iff_right hdebounce]
  · obtain ⟨-, -, hpoll, hdelay⟩ := External.ofSettings_ok hx
    obtain ⟨hdebounce, hw⟩ := watching_waits hg
    have hw := hw.trans hpoll
    have hg := hdebounce.trans hdelay
    have hseconds : (of g.debouncer g.watcher).debounce = Delay.seconds settings.reloadDelay := by rw [of, hg]
    rw [hseconds, hfit _ hw, hg, ← debounce_isTimeout_iff hnonneg]
    exact ⟨hpoll, hw, seconds_ok_iff hnonneg, Iff.rfl, Iff.rfl⟩

theorem start_bare (interval : Binary64) (delay : Int) :
    Watching.start Host.bare.disk Vigil.manifestPath interval delay =
      .ok ⟨⟨External.watchPaths Vigil.manifestPath, [], interval⟩, .new delay, false⟩ := by
  rw [Watching.start, Watcher.start, Vigil.snapshot_bare]
  rfl

/-- A library is started with whatever interval the settings have. -/
theorem session_bare {h : Host} {settings : Settings}
    (hl : Settings.load h.platform.basis h.environment = .ok settings)
    (hd : h.disk = Host.bare.disk) (h0 : 0 ≤ settings.reloadDelay) (hle : settings.reloadDelay ≤ Delay.limit) :
    ∃ given s h', CommandLine.startSession given "/mod.so" none h = (.ok s, h') := by
  let g : GivenLoader := ⟨[], none, false⟩
  have hlook : h.disk.look ⟨true, false⟩ Host.libraryPath = .ok (.found ["mod.so"] (.file .empty 0)) := by
    rw [hd]
    exact Session.look_bare
  obtain ⟨h', hspawn, -⟩ := Handle.spawn_given_watching (g := g) rfl hlook settings.reloadDelay settings.pollInterval
  have hpath : Files.Path.ofString "/mod.so" = Host.libraryPath := by decide
  have hparse : Delay.parse (.int settings.reloadDelay) = .ok settings.reloadDelay := by
    simp [Delay.parse, Delay.number, bind, Except.bind, pure, Except.pure, not_lt.2 h0, not_lt.2 hle]
  rw [← hpath] at hspawn
  let t : Toolchain := .substitute ⟨.ok true, .ok true, .ok true, .given g⟩
  have hs : CommandLine.startSession (some t) "/mod.so" none h = (.ok ⟨h', t.loader, _⟩, h') :=
    CommandLine.startSession_given hl hparse hspawn
  exact ⟨some t, _, h', hs⟩

/-- With the settings of an empty environment every wait can be made. -/
theorem fit_standard :
    ∃ settings, Settings.load Host.bare.platform.basis Host.bare.environment = .ok settings ∧
      (∃ given s h' w, CommandLine.startSession given "/mod.so" none .bare = (.ok s, h') ∧
        s.handle.working? = some w ∧ (of s.handle.debouncer w).Fit) ∧
      ∃ x g, External.ofSettings settings Host.bare.platform.loader = .ok x ∧
        Watching.start Host.bare.disk Vigil.manifestPath x.pollInterval x.debounce = .ok g ∧
        (of g.debouncer g.watcher).Fit := by
  obtain ⟨settings, hl, hquarter, hdelay, x, hx⟩ : ∃ settings,
      Settings.load (StandIn.basis "/") [] = .ok settings ∧ settings.pollInterval.magnitude ≤ quarterLimit ∧
        settings.reloadDelay = 10 ∧ ∃ x, External.ofSettings settings Host.bare.platform.loader = .ok x :=
    ⟨_, rfl, by decide +kernel, rfl, _, rfl⟩
  have hfinite : settings.pollInterval.isFinite = true :=
    isFinite_iff.2 (hquarter.trans_lt (by decide))
  have hvalue : settings.pollInterval.value ≤ longest / 4 := by
    rw [← valueAt_quarterLimit.1]
    exact valueAt_strictMono.monotone hquarter
  obtain ⟨hstart, hbuild, -⟩ := fit_iff (h := .bare) hl
  refine ⟨settings, hl, ?_, x, _, hx, start_bare _ _, ?_⟩
  · obtain ⟨given, s, h', hs⟩ := session_bare (h := .bare) hl rfl (by omega) (by rw [hdelay]; decide)
    obtain ⟨w, hworking, -, -, hfit⟩ := hstart _ _ _ _ _ hs
    exact ⟨given, s, h', w, hs, hworking, hfit.2 ⟨hfinite, hvalue⟩⟩
  · exact (hbuild _ x _ _ _ hx (start_bare _ _)).2.2.2.2.2 ⟨by rw [hdelay]; decide, hfinite, hvalue⟩

theorem settings_of_delay {text : String} {n : Int} (hn : Numeral.readInteger text.toList = .ok n) (h0 : 0 ≤ n) :
    ∃ settings x, Settings.load (StandIn.basis "/") [("MUN_RELOAD_DELAY_MS", text)] = .ok settings ∧
      settings.reloadDelay = n ∧ External.ofSettings settings Host.bare.platform.loader = .ok x := by
  have hdelay : Settings.reloadDelayOf [("MUN_RELOAD_DELAY_MS", text)] = .ok n := by
    simp [Settings.reloadDelayOf, Environment.get?, valueAt?, hn]
  have hquarter : Numeral.readReal ['0', '.', '2', '5'] = some (ofNatBits 0x3fd0000000000000) := by decide +kernel
  have hinterval : Settings.pollIntervalOf [("MUN_RELOAD_DELAY_MS", text)] = .ok (ofNatBits 0x3fd0000000000000) := by
    simp [Settings.pollIntervalOf, Environment.get?, valueAt?, hquarter]
  have hnone : (StandIn.basis "/").checker.faults (ofNatBits 0x3fd0000000000000) n = [] :=
    (Settings.Checker.faults_eq_nil _ _ _).2 ⟨by decide, h0⟩
  obtain ⟨settings, hload, hsettings, hcompiler, hserver⟩ : ∃ settings,
      Settings.load (StandIn.basis "/") [("MUN_RELOAD_DELAY_MS", text)] = .ok settings ∧ settings.reloadDelay = n ∧
        settings.compiler = "munc" ∧ settings.languageServer = "mun-language-server" := by
    rw [Settings.load, hinterval, hdelay]
    simp [bind, Except.bind, hnone, Settings.outDirOf, Environment.filled?, Environment.get?, valueAt?, pure, Except.pure]
  obtain ⟨x, hx⟩ : ∃ x, External.ofSettings settings Host.bare.platform.loader = .ok x := by
    rw [External.ofSettings, hcompiler, hserver]
    exact ⟨_, rfl⟩
  exact ⟨settings, x, hload, hsettings, hx⟩

/-- A delay of four hundred digits is accepted, and no build can compute its seconds; an infinite interval is accepted,
and a library is started with it. -/
theorem fit_fails :
    let large : Host := { Host.bare with
      environment := [("MUN_RELOAD_DELAY_MS", String.ofList ('1' :: List.replicate 400 '0'))] }
    let endless : Host := { Host.bare with environment := [("MUN_WATCH_POLL_INTERVAL", "inf")] }
    (∃ settings x g, Settings.load large.platform.basis large.environment = .ok settings ∧
      External.ofSettings settings large.platform.loader = .ok x ∧
      Watching.start large.disk Vigil.manifestPath x.pollInterval x.debounce = .ok g ∧
      (of g.debouncer g.watcher).debounce = .error .realTooLarge ∧ ¬(of g.debouncer g.watcher).Fit) ∧
      ∃ settings given s h' w, Settings.load endless.platform.basis endless.environment = .ok settings ∧
        CommandLine.startSession given "/mod.so" none endless = (.ok s, h') ∧ s.handle.working? = some w ∧
        ¬IsTimeout (of s.handle.debouncer w).interval := by
  intro large endless
  constructor
  · have hread : Numeral.readInteger (String.ofList ('1' :: List.replicate 400 '0')).toList = .ok (10 ^ 400) := by
      rw [String.toList_ofList]
      decide +kernel
    obtain ⟨settings, x, hl, hn, hx⟩ := settings_of_delay hread (by positivity)
    have hdebounce (w : Watcher) : (of (.new x.debounce) w).debounce = .error .realTooLarge :=
      seconds_large (n := 400) (by norm_num) ((External.ofSettings_ok hx).2.2.2.trans hn)
    refine ⟨settings, x, _, hl, hx, start_bare _ _, hdebounce _, fun hfit => ?_⟩
    obtain ⟨t, ht, -⟩ := hfit.debounce
    cases (hdebounce _).symm.trans ht
  · obtain ⟨settings, hl, hinterval, hdelay⟩ : ∃ settings,
        Settings.load (StandIn.basis "/") [("MUN_WATCH_POLL_INTERVAL", "inf")] = .ok settings ∧
          settings.pollInterval = infinite false ∧ settings.reloadDelay = 10 :=
      ⟨_, rfl, by decide +kernel, rfl⟩
    obtain ⟨given, s, h', hs⟩ := session_bare (h := endless) hl rfl (by omega) (by rw [hdelay]; decide)
    obtain ⟨-, w, hworking, hw⟩ := startSession_waits hl hs
    refine ⟨settings, given, s, h', w, hl, hs, hworking, fun htimeout => ?_⟩
    have hfinite : w.interval.isFinite = true := htimeout.finite
    rw [hw, hinterval] at hfinite
    exact absurd hfinite (by decide)

end Waits

end Hotload
