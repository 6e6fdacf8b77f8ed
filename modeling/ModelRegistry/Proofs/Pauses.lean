import ModelRegistry.Backoff
import ModelRegistry.Proofs.Rounding
import ModelRegistry.SettingsFile

namespace ModelRegistry

namespace Settings

theorem require_bind_eq_ok {α : Type} {holds : Bool} {field reason : String}
    {next : Unit → Except ConfigError α} {a : α} :
    (require holds field reason >>= next) = .ok a ↔ holds ∧ next () = .ok a := by
  cases holds <;> simp [require, bind, Except.bind]

theorem retry_of_check {s : Settings} (h : s.check = .ok ()) :
    0 < s.retry.initialDelay ∧ s.retry.initialDelay ≤ s.retry.maxDelay ∧
      s.retry.multiplier.isBelowOne = false := by
  simp only [check, require_bind_eq_ok] at h
  obtain ⟨-, -, -, -, hinitial, hmax, hmultiplier, -⟩ := h
  refine ⟨?_, by simpa using hmax, by simpa using hmultiplier⟩
  have hne : s.retry.initialDelay ≠ 0 := by simpa using hinitial
  omega

theorem check_of_parse {text : String} {s : Settings} (h : parse text = .ok s) :
    s.check = .ok () := by
  unfold parse at h
  split at h
  · cases h
  · rename_i found hfound
    cases hcheck : found.check with
    | error e => simp [hcheck, bind, Except.bind] at h
    | ok =>
      obtain rfl : found = s := by simpa [hcheck, bind, Except.bind, pure, Except.pure] using h
      exact hcheck

end Settings

namespace Backoff

open Binary64

theorem advance_iterate (b : Backoff) (n : Nat) :
    (advance^[n] b).max = b.max ∧ (advance^[n] b).multiplier = b.multiplier := by
  induction n generalizing b with
  | zero => exact ⟨rfl, rfl⟩
  | succ n ih => exact ih b.advance

theorem le_advance {b : Backoff} {c : Nat} (hc : IsExact c) (hle : c ≤ b.current)
    (hmax : c ≤ b.max) (hm : b.multiplier ≠ nan) (hone : b.multiplier.isBelowOne = false) :
    c ≤ b.advance.current :=
  le_min (le_toWord_mul hc (le_toWord_ofNat hc hle) hm hone) hmax

theorem le_iterate {b : Backoff} {c : Nat} (hc : IsExact c) (hle : c ≤ b.current)
    (hmax : c ≤ b.max) (hm : b.multiplier ≠ nan) (hone : b.multiplier.isBelowOne = false)
    (n : Nat) :
    c ≤ (advance^[n] b).current := by
  induction n generalizing b with
  | zero => exact hle
  | succ n ih => exact ih (le_advance hc hle hmax hm hone) hmax hm hone

theorem iterate_le_max {b : Backoff} (h : b.current ≤ b.max) (n : Nat) :
    (advance^[n] b).current ≤ b.max := by
  induction n generalizing b with
  | zero => exact h
  | succ n ih => exact ih b.advance_current_le

theorem pause_le {b : Backoff} {limit : Nat} (h : b.current ≤ limit) (draw : Nat) :
    b.pause draw ≤ limit + jitterRange limit := by
  have hpause := (b.pause_mem_bounds draw).2
  have hrange : jitterRange b.current ≤ jitterRange limit := Nat.div_le_div_right h
  simp only [bounds] at hpause
  omega

/-- Under settings that a document gives, with a multiplier that is a number, no delay falls below
the first one, or below the next, so far as binary floating point holds it exactly. -/
theorem delays_of_parse {text : String} {s : Settings} (h : Settings.parse text = .ok s)
    (hm : s.retry.multiplier ≠ nan) (n draw : Nat) :
    let b := advance^[n] (.start s.retry)
    (∀ c, IsExact c → c ≤ s.retry.initialDelay → c ≤ b.current) ∧ b.current ≤ s.retry.maxDelay ∧
      (∀ c, IsExact c → c ≤ b.current → c ≤ b.advance.current) ∧
      1 ≤ b.pause draw ∧ b.current ≤ b.pause draw ∧
      b.pause draw ≤ s.retry.maxDelay + jitterRange s.retry.maxDelay := by
  obtain ⟨hpos, hbounds, hone⟩ := Settings.retry_of_check (Settings.check_of_parse h)
  intro b
  obtain ⟨hbmax, hbmult⟩ := advance_iterate (.start s.retry) n
  have hmax : b.current ≤ s.retry.maxDelay := iterate_le_max hbounds n
  have hlow : ∀ c, IsExact c → c ≤ s.retry.initialDelay → c ≤ b.current :=
    fun c hc hle => le_iterate hc hle (hle.trans hbounds) hm hone n
  have hpause := (b.pause_mem_bounds draw).1
  refine ⟨hlow, hmax, ?_, ?_, hpause, pause_le hmax draw⟩
  · intro c hc hle
    apply le_advance hc hle
    · rw [hbmax]
      exact hle.trans hmax
    · rwa [hbmult]
    · rwa [hbmult]
  · exact (hlow 1 (isExact_of_le (by omega)) hpos).trans hpause

def retryOf (text : String) : Option RetrySettings := (Settings.parse text).toOption.map (·.retry)

theorem parse_of_retryOf {text : String} {r : RetrySettings} (h : retryOf text = some r) :
    ∃ s, Settings.parse text = .ok s ∧ s.retry = r := by
  unfold retryOf at h
  cases hparse : Settings.parse text with
  | error e => simp [hparse, Except.toOption] at h
  | ok s =>
    refine ⟨s, rfl, ?_⟩
    simpa [hparse, Except.toOption] using h

def growing : String := "[retry]\ninitial_delay_ms = 4\nmax_delay_ms = 9\nbackoff_multiplier = 1.5"

theorem delays_of_parse_growing : ∃ s, Settings.parse growing = .ok s ∧ s.retry.multiplier ≠ nan ∧
    (advance^[2] (.start s.retry)).current = 9 ∧ 4 ≤ (advance^[2] (.start s.retry)).pause 1 ∧
      (advance^[2] (.start s.retry)).pause 1 ≤ 10 := by
  have hretry : retryOf growing = some ⟨4, 9, .finite false 6755399441055744 (-52)⟩ := by
    decide +kernel
  obtain ⟨s, hs, hr⟩ := parse_of_retryOf hretry
  have hm : s.retry.multiplier ≠ nan := by
    rw [hr]
    decide
  have hinitial : s.retry.initialDelay = 4 := by rw [hr]
  have hmax : s.retry.maxDelay = 9 := by rw [hr]
  have hfour : IsExact 4 := isExact_of_le (by omega)
  obtain ⟨hlow, -, -, -, hle, hpause⟩ := delays_of_parse hs hm 2 1
  have hfirst := hlow 4 hfour (by omega)
  rw [hmax] at hpause
  refine ⟨s, hs, hm, ?_, hfirst.trans hle, hpause⟩
  rw [hr]
  decide +kernel

def numberless : String := "[retry]\nbackoff_multiplier = nan"

def inexact : String :=
  "[retry]\ninitial_delay_ms = 9007199254740993\nmax_delay_ms = 9007199254740993\n" ++
    "backoff_multiplier = 1.0"

/-- Settings are accepted with which the pauses stop, and others with which a delay shrinks. -/
theorem shrinking_delays :
    (∃ s, Settings.parse numberless = .ok s ∧ s.retry.initialDelay = 100 ∧
      (advance^[1] (.start s.retry)).current = 0 ∧ (advance^[1] (.start s.retry)).pause 0 = 0) ∧
    ∃ s, Settings.parse inexact = .ok s ∧ s.retry.initialDelay = 9007199254740993 ∧
      (advance^[1] (.start s.retry)).current = 9007199254740992 := by
  have hnan : retryOf numberless = some ⟨100, 5000, nan⟩ := by decide +kernel
  have hlarge : retryOf inexact =
      some ⟨9007199254740993, 9007199254740993, .finite false 4503599627370496 (-52)⟩ := by
    decide +kernel
  obtain ⟨s, hs, hr⟩ := parse_of_retryOf hnan
  obtain ⟨t, ht, htr⟩ := parse_of_retryOf hlarge
  refine ⟨⟨s, hs, ?_⟩, t, ht, ?_⟩
  · rw [hr]
    decide +kernel
  · rw [htr]
    decide +kernel

end Backoff

end ModelRegistry
