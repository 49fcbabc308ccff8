import Mathlib
import ModMirror.Fs.Retry

/-!
# Bounded retry

`retryBlocking` calls an operation until a call succeeds, fails for good, or fails
transiently once the policy's retries are spent. Every run makes at most
`maxRetries + 1` calls and pauses `delayFor 1, delayFor 2, …` before the retries,
never longer than the cap of a doubling delay. With `k` the first call (from 0)
whose outcome is no transient failure, a run with `k ≤ maxRetries` makes `k + 1`
calls and returns that outcome; a run that fails transiently on every allowed
call makes `maxRetries + 1` calls and reports the last failure, an I/O failure as
exhausted with the policy's attempts, a lock failure as it is
(`retryBlocking_bounded`). The attempts are a 32-bit count: they equal the calls
below the largest `maxRetries` and wrap to `0` at it.

The loop is followed one call at a time (`loop_ok`, `loop_permanent`, `loop_stop`,
`loop_retry`), with the call index kept equal to the retries granted; a run of
transient failures is then one induction (`loop_transient_run`), and so is the
shape of every run (`loop_shape`). The fuel-driven `run` that hashing uses agrees
with `retryBlocking` on outcome and calls (`run_eq_retryBlocking`).
-/

namespace ModMirror

namespace retryNotify

variable {ε α : Type} (op : Nat → Except (BackoffError ε) α) {b : PolicyBackoff} {k : Nat}

theorem loop_ok {v : α} (h : op k = .ok v) : loop op b k = ⟨.ok v, k + 1, []⟩ := by
  rw [loop, h]

theorem loop_permanent {e : ε} (h : op k = .error (.permanent e)) :
    loop op b k = ⟨.error (.permanent e), k + 1, []⟩ := by
  rw [loop, h]

theorem loop_of_not_transient (h : ∀ e, op k ≠ .error (.transient e)) : loop op b k = ⟨op k, k + 1, []⟩ := by
  cases hk : op k with
  | ok v => exact loop_ok op hk
  | error e =>
    cases e with
    | permanent e => exact loop_permanent op hk
    | transient e => exact absurd hk (h e)

/-- A transient failure with the retries spent ends the loop with that failure. -/
theorem loop_stop {e : ε} (h : op k = .error (.transient e)) (hb : b.policy.maxRetries ≤ b.retries) :
    loop op b k = ⟨.error (.transient e), k + 1, []⟩ := by
  have hn : b.next = (none, b) := if_pos hb
  rw [loop, h]
  dsimp only
  split
  · rfl
  · rename_i heq
    rw [hn] at heq
    cases heq

/-- A transient failure with a retry left pauses for it and calls again. -/
theorem loop_retry {e : ε} (h : op k = .error (.transient e)) (hb : b.retries < b.policy.maxRetries) :
    loop op b k =
      let r := loop op { b with retries := b.retries + 1 } (k + 1)
      { r with pauses := b.policy.delayFor (b.retries + 1) :: r.pauses } := by
  have hn : b.next = (some (b.policy.delayFor (b.retries + 1)), { b with retries := b.retries + 1 }) :=
    if_neg (Nat.not_le.mpr hb)
  rw [loop, h]
  dsimp only
  split
  · rename_i heq
    rw [hn] at heq
    cases heq
  · rename_i heq
    rw [hn] at heq
    cases heq
    rfl

/-- Through `n` transient failures from call `k`, made with `k` retries granted and `n` more
left, the loop pauses before each retry with the policy's pause for it. -/
theorem loop_transient_run (p : RetryPolicy) : ∀ n k, (∀ i < n, ∃ e, op (k + i) = .error (.transient e)) →
    k + n ≤ p.maxRetries →
    loop op ⟨p, k⟩ k =
      let r := loop op ⟨p, k + n⟩ (k + n)
      { r with pauses := (List.range' (k + 1) n).map p.delayFor ++ r.pauses }
  | 0, k, _, _ => rfl
  | n + 1, k, htr, hle => by
    obtain ⟨e, he⟩ := htr 0 (by omega)
    rw [Nat.add_zero] at he
    have htail : ∀ i < n, ∃ e, op (k + 1 + i) = .error (.transient e) := fun i hi => by
      simpa [Nat.add_assoc, Nat.add_comm 1 i] using htr (i + 1) (by omega)
    have hk : k + (n + 1) = k + 1 + n := by omega
    rw [loop_retry op he (show k < p.maxRetries by omega)]
    dsimp only
    rw [loop_transient_run p n (k + 1) htail (by omega), hk, List.range'_succ]
    rfl

/-- Every run from call `k`, with the call index equal to the retries granted, makes
`n + 1` calls for some `n` within the retries left, and pauses with the policy's pauses
for the next `n` retries. -/
theorem loop_shape (p : RetryPolicy) (k : Nat) (hk : k ≤ p.maxRetries) :
    ∃ n, k + n ≤ p.maxRetries ∧ (loop op ⟨p, k⟩ k).calls = k + n + 1 ∧
      (loop op ⟨p, k⟩ k).pauses = (List.range' (k + 1) n).map p.delayFor := by
  by_cases ht : ∃ e, op k = .error (.transient e)
  · obtain ⟨e, hop⟩ := ht
    by_cases hlt : k < p.maxRetries
    · -- one pause, then the run from the next call
      obtain ⟨n, hn, hcalls, hpauses⟩ := loop_shape p (k + 1) (by omega)
      have hstep := loop_retry op (b := ⟨p, k⟩) hop hlt
      refine ⟨n + 1, by omega, ?_, ?_⟩
      · rw [hstep]
        dsimp only
        rw [hcalls]
        omega
      · rw [hstep]
        dsimp only
        rw [hpauses, List.range'_succ]
        rfl
    · have hstop := loop_stop op (b := ⟨p, k⟩) hop (by dsimp only; omega)
      exact ⟨0, by omega, by rw [hstop], by rw [hstop]; rfl⟩
  · -- the call ends the run
    have hend := loop_of_not_transient op (b := ⟨p, k⟩) fun e he => ht ⟨e, he⟩
    exact ⟨0, by omega, by rw [hend], by rw [hend]; rfl⟩
termination_by p.maxRetries - k

end retryNotify

namespace RetryPolicy

open retryNotify

section Steps

variable {α : Type} (p : RetryPolicy) (op : Nat → Except FsError α)

/-- An outcome the retry loop calls again after: a transient failure. -/
def failsTransiently : Except FsError α → Bool
  | .ok _ => false
  | .error e => e.transient

theorem retryBlocking_eq :
    p.retryBlocking op =
      let r := retryNotify.loop (fun k => (op k).mapError classify) ⟨p, 0⟩ 0
      { r with outcome := settle p.maxAttempts r.outcome } := rfl

theorem classify_of_transient {r : Except FsError α} (h : failsTransiently r = true) :
    ∃ e, r = .error e ∧ e.transient = true ∧ r.mapError classify = .error (.transient e) := by
  cases r with
  | ok v => cases h
  | error e => exact ⟨e, rfl, h, by simp [Except.mapError, classify, show e.transient = true from h]⟩

theorem classify_transient {r : Except FsError α} (h : failsTransiently r = true) :
    ∃ e, r.mapError classify = .error (.transient e) :=
  (classify_of_transient h).imp fun _ he => he.2.2

theorem classify_of_not_transient {r : Except FsError α} (h : failsTransiently r = false) (attempts : Nat) :
    (∀ e, r.mapError classify ≠ .error (.transient e)) ∧ settle attempts (r.mapError classify) = r := by
  cases r with
  | ok v => exact ⟨fun e => by simp [Except.mapError], rfl⟩
  | error e =>
    have he : e.transient = false := h
    simp [Except.mapError, classify, he, settle]

theorem maxAttempts_of_lt (h : p.maxRetries < u32Max) : p.maxAttempts = p.maxRetries + 1 :=
  Nat.mod_eq_of_lt (by unfold u32Max at h; omega)

example : (RetryPolicy.mk u32Max (.fixed 0)).maxAttempts = 0 := by decide

/-- Every pause of a doubling delay is within its cap. -/
theorem delayFor_le_cap {initial cap : Nat} (h : p.delay = .exponential initial cap) (r : Nat) :
    p.delayFor r ≤ cap := by
  simp only [delayFor, h]
  omega

/-- Under a policy, a run of the retry loop that fails transiently on every allowed call
stops after `maxRetries + 1` calls with the last failure. -/
theorem loop_exhausts (cop : Nat → Except (BackoffError FsError) α)
    (htr : ∀ i ≤ p.maxRetries, ∃ e, cop i = .error (.transient e)) :
    retryNotify.loop cop ⟨p, 0⟩ 0 =
      ⟨cop p.maxRetries, p.maxRetries + 1, (List.range' 1 p.maxRetries).map p.delayFor⟩ := by
  obtain ⟨e, he⟩ := htr p.maxRetries (Nat.le_refl _)
  have hrun := loop_transient_run cop p p.maxRetries 0 (fun i hi => by simpa using htr i (by omega)) (by omega)
  simp only [Nat.zero_add] at hrun
  rw [hrun, loop_stop cop he (Nat.le_refl _), he]
  simp

/-- Under a policy, a run of the retry loop settles at the first call that does not fail
transiently, when that call is within the retries. -/
theorem loop_settles (cop : Nat → Except (BackoffError FsError) α) {k : Nat} (hk : k ≤ p.maxRetries)
    (htr : ∀ i < k, ∃ e, cop i = .error (.transient e)) (hsettle : ∀ e, cop k ≠ .error (.transient e)) :
    retryNotify.loop cop ⟨p, 0⟩ 0 = ⟨cop k, k + 1, (List.range' 1 k).map p.delayFor⟩ := by
  have hrun := loop_transient_run cop p k 0 (fun i hi => by simpa using htr i hi) (by omega)
  simp only [Nat.zero_add] at hrun
  rw [hrun, loop_of_not_transient cop hsettle]
  simp

/-- The fuel-driven loop, from call `k` with fuel for the calls left, follows the retry loop
with `k` retries granted. -/
theorem run_go_eq : ∀ fuel k, k + fuel = p.maxRetries + 1 → 0 < fuel →
    run.go p op k fuel =
      let r := retryNotify.loop (fun k => (op k).mapError classify) ⟨p, k⟩ k
      (settle p.maxAttempts r.outcome, r.calls)
  | 0, _, _, hpos => absurd hpos (Nat.lt_irrefl 0)
  | fuel + 1, k, hfuel, _ => by
    cases hop : op k with
    | ok v =>
      rw [loop_ok _ (show (op k).mapError classify = .ok v by rw [hop]; rfl)]
      simp [run.go, hop, settle]
    | error e =>
      by_cases ht : e.transient = true
      · have hcl : (op k).mapError classify = .error (.transient e) := by
          simp [hop, Except.mapError, classify, ht]
        by_cases hlt : k < p.maxRetries
        · -- one more call through both loops
          rw [loop_retry _ (b := ⟨p, k⟩) hcl hlt]
          simp only [run.go, hop, ht, Bool.not_true, Bool.false_eq_true, ↓reduceIte, hlt]
          exact run_go_eq fuel (k + 1) (by omega) (by omega)
        · rw [loop_stop _ (b := ⟨p, k⟩) hcl (by dsimp only; omega)]
          simp only [run.go, hop, ht, Bool.not_true, Bool.false_eq_true, ↓reduceIte, hlt]
          cases e <;> rfl
      · have hf : e.transient = false := by simpa using ht
        rw [loop_permanent _ (show (op k).mapError classify = .error (.permanent e) by
          simp [hop, Except.mapError, classify, hf])]
        simp [run.go, hop, hf, settle]

/-- The fuel-driven `run` agrees with `retryBlocking` on the outcome and the calls. -/
theorem run_eq_retryBlocking : p.run op = ((p.retryBlocking op).outcome, (p.retryBlocking op).calls) :=
  run_go_eq p op (p.maxRetries + 1) 0 (by omega) (by omega)

end Steps

/-- Bounded retry: every run makes between one and `maxRetries + 1` calls and pauses with the
policy's pauses for retries `1, 2, …`, each within the cap of a doubling delay; a run settles
at the first call within the retries that does not fail transiently, with its outcome; a run
that fails transiently on every allowed call reports an I/O failure as exhausted after
`maxAttempts` attempts, which are the calls below the largest 32-bit count, and a lock
failure as it is. -/
theorem retryBlocking_bounded {α : Type} (p : RetryPolicy) (op : Nat → Except FsError α) :
    let r := p.retryBlocking op
    (0 < r.calls ∧ r.calls ≤ p.maxRetries + 1 ∧ r.pauses = (List.range' 1 (r.calls - 1)).map p.delayFor ∧
      ∀ initial cap, p.delay = .exponential initial cap → ∀ d ∈ r.pauses, d ≤ cap) ∧
    (∀ k ≤ p.maxRetries, (∀ i < k, failsTransiently (op i) = true) → failsTransiently (op k) = false →
      r.outcome = op k ∧ r.calls = k + 1) ∧
    ((∀ i ≤ p.maxRetries, failsTransiently (op i) = true) →
      r.calls = p.maxRetries + 1 ∧
      (∀ path cause, op p.maxRetries = .error (.io path cause) →
        r.outcome = .error (.retriesExhausted path p.maxAttempts cause)) ∧
      (∀ path, op p.maxRetries = .error (.lockFailed path) → r.outcome = .error (.lockFailed path)) ∧
      (p.maxRetries < u32Max → p.maxAttempts = r.calls)) := by
  intro r
  have hr : r = { retryNotify.loop (fun k => (op k).mapError classify) ⟨p, 0⟩ 0 with
      outcome := settle p.maxAttempts (retryNotify.loop (fun k => (op k).mapError classify) ⟨p, 0⟩ 0).outcome } :=
    retryBlocking_eq p op
  refine ⟨?_, fun k hk htr hsettle => ?_, fun htr => ?_⟩
  · -- every run: the shape of the loop from the first call
    obtain ⟨n, hn, hcalls, hpauses⟩ := loop_shape (fun k => (op k).mapError classify) p 0 (Nat.zero_le _)
    have hc : r.calls = n + 1 := by rw [hr]; simpa using hcalls
    have hp : r.pauses = (List.range' 1 n).map p.delayFor := by rw [hr]; simpa using hpauses
    refine ⟨by omega, by omega, by rw [hp, hc, Nat.add_sub_cancel], fun initial cap hd d hmem => ?_⟩
    rw [hp] at hmem
    obtain ⟨j, -, rfl⟩ := List.mem_map.mp hmem
    exact delayFor_le_cap p hd j
  · -- settled at call `k`
    obtain ⟨hne, hsame⟩ := classify_of_not_transient hsettle p.maxAttempts
    have hloop := loop_settles p _ hk (fun i hi => classify_transient (htr i hi)) hne
    rw [hr, hloop]
    exact ⟨hsame, rfl⟩
  · -- every allowed call fails transiently
    have hloop := loop_exhausts p (fun k => (op k).mapError classify) fun i hi => classify_transient (htr i hi)
    have hc : r.calls = p.maxRetries + 1 := by rw [hr, hloop]
    obtain ⟨e, he, -, hmap⟩ := classify_of_transient (htr p.maxRetries (Nat.le_refl _))
    have hout : r.outcome = settle p.maxAttempts (.error (.transient e)) := by rw [hr, hloop, ← hmap]
    refine ⟨hc, fun path cause hio => ?_, fun path hlock => ?_, fun hlt => ?_⟩
    · rw [hio] at he
      cases he
      exact hout
    · rw [hlock] at he
      cases he
      exact hout
    · rw [hc, maxAttempts_of_lt p hlt]

/-- Under five retries, an operation that fails with a busy file twice and then succeeds is
called three times, and one that is busy every time is called six times and reported as
exhausted after six attempts. -/
theorem retryBlocking_bounded_locked :
    ((RetryPolicy.mk 5 (.fixed 0)).retryBlocking fun k =>
        if k < 2 then .error (.io "locked.dll" (.simple .wouldBlock)) else .ok (42 : Nat)).outcome = .ok 42 ∧
    ((RetryPolicy.mk 5 (.fixed 0)).retryBlocking fun k =>
        if k < 2 then .error (.io "locked.dll" (.simple .wouldBlock)) else .ok (42 : Nat)).calls = 3 ∧
    ((RetryPolicy.mk 5 (.fixed 0)).retryBlocking fun _ =>
        (.error (.io "locked.dll" (.simple .wouldBlock)) : Except FsError Nat)).outcome =
      .error (.retriesExhausted "locked.dll" 6 (.simple .wouldBlock)) ∧
    ((RetryPolicy.mk 5 (.fixed 0)).retryBlocking fun _ =>
        (.error (.io "locked.dll" (.simple .wouldBlock)) : Except FsError Nat)).calls = 6 := by
  -- the policy and the operation are read off the goal before the side conditions are decided
  refine ⟨((retryBlocking_bounded _ _).2.1 2 ?_ ?_ ?_).1, ((retryBlocking_bounded _ _).2.1 2 ?_ ?_ ?_).2,
    ((retryBlocking_bounded _ _).2.2 ?_).2.1 _ _ rfl, ((retryBlocking_bounded _ _).2.2 ?_).1⟩ <;> decide

end RetryPolicy

end ModMirror
