import Mathlib
import ModMirror.Proofs.Phases
import ModMirror.Proofs.Build

/-!
# Transfers over every interleaving

A transfer makes one unit per download path of its plans, or refuses the
plans before anything runs when a path escapes its root (`units_ok`,
`units_error_iff`). The units then run as tasks that the runtime
interleaves as it likes, with the cancel token raised from outside at any
moment; a run is a schedule of such events, finished one unit at a time.

Whatever the schedule, each step keeps a batch `Sound`: the started units
are the first units in order, every task has retried at most
`maxRetries` times and only after passing failures, and a task that gave
up or failed left the token raised (`step_sound`, so `run_sound`). Each
step leaves an ended task alone, and a task not ended moves on by a
measure that a try of at most two steps pays for (`Moves.closer`); the
events that finish a batch therefore end every task (`finishing_done`).
Each call of the source is made by one task and counted by it, so a path is
fetched at most `maxRetries + 1` times for each unit of it
(`execute_calls_le`). At the end the token alone decides the outcome:

    token down  →  every unit started and wrote its file
    token up    →  in place ≤ written, written + failures ≤ units
-/

namespace ModMirror

/-- Every download path of a plan set, with its plan, in plan order. -/
def PlanSet.downloadPaths (plans : PlanSet) : List (SyncPlan × String) :=
  plans.plans.flatMap fun p => p.downloads.map (p, ·)

theorem PlanSet.length_downloadPaths (plans : PlanSet) : plans.downloadPaths.length = plans.downloadCount := by
  unfold downloadPaths downloadCount
  induction plans.plans with
  | nil => rfl
  | cons p ps ih => simp [ih]

namespace TransferManager

variable {m : TransferManager}

/-- What a download path of a plan and its unit have to do with each other:
the path is clean, and the unit goes below the root its plan asks for. -/
def MadeUnit (m : TransferManager) (x : SyncPlan × String) (u : TransferUnit) : Prop :=
  ∃ clean, Path.sanitize x.2 = .ok clean ∧
    u = { relative := x.2, destination := ((m.rootFor x.1.spec.restartRequired).join clean).text,
          staged := x.1.spec.restartRequired }

theorem unitOf_eq_ok {p : SyncPlan} {rel : String} {u : TransferUnit} :
    m.unitOf p rel = .ok u ↔ m.MadeUnit (p, rel) u := by
  unfold unitOf MadeUnit
  cases hs : Path.sanitize rel with
  | error e => simp [Except.mapError, bind, Except.bind]
  | ok clean =>
    simp only [Except.mapError, bind, Except.bind, pure, Except.pure, Except.ok.injEq]
    exact ⟨fun h => ⟨clean, rfl, h.symm⟩, fun ⟨c, hc, hu⟩ => by cases hc; exact hu.symm⟩

theorem unitOf_eq_error {p : SyncPlan} {rel : String} {e : SyncError} (h : m.unitOf p rel = .error e) :
    ∃ e₀, Path.sanitize rel = .error e₀ := by
  unfold unitOf at h
  cases hs : Path.sanitize rel with
  | error e₀ => exact ⟨e₀, rfl⟩
  | ok clean => simp [hs, Except.mapError, bind, Except.bind, pure, Except.pure] at h

/-- The units of a plan set stand, in order, for its download paths. -/
theorem units_ok {plans : PlanSet} {us : List TransferUnit} (h : m.units plans = .ok us) :
    List.Forall₂ m.MadeUnit plans.downloadPaths us := by
  unfold units at h
  unfold PlanSet.downloadPaths
  generalize plans.plans = ps at h
  induction ps generalizing us with
  | nil =>
    simp only [List.flatMapM_nil, pure, Except.pure, Except.ok.injEq] at h
    subst h
    exact .nil
  | cons p ps ih =>
    rw [List.flatMapM_cons] at h
    cases hp : p.downloads.mapM (m.unitOf p) with
    | error e => simp [hp, bind, Except.bind] at h
    | ok vs =>
      cases hps : ps.flatMapM (fun p => p.downloads.mapM (m.unitOf p)) with
      | error e => simp [hp, hps, bind, Except.bind] at h
      | ok ws =>
        simp only [hp, hps, bind, Except.bind, pure, Except.pure, Except.ok.injEq] at h
        subst h
        rw [List.flatMap_cons]
        refine List.rel_append (List.forall₂_map_left_iff.mpr ?_) (ih hps)
        exact (forall₂_of_mapM_ok hp).imp fun _ _ hu => unitOf_eq_ok.mp hu

/-- A plan set is refused exactly when one of its download paths is not clean. -/
theorem units_error_iff {plans : PlanSet} :
    (∃ e, m.units plans = .error e) ↔ ∃ x ∈ plans.downloadPaths, ∃ e, Path.sanitize x.2 = .error e := by
  constructor
  · rintro ⟨e, h⟩
    obtain ⟨p, hp, hmap⟩ := flatMapM_eq_error h
    obtain ⟨rel, hrel, hu⟩ := mapM_eq_error hmap
    exact ⟨(p, rel), List.mem_flatMap.mpr ⟨p, hp, List.mem_map.mpr ⟨rel, hrel, rfl⟩⟩, unitOf_eq_error hu⟩
  · rintro ⟨x, hx, e, he⟩
    cases hus : m.units plans with
    | error e' => exact ⟨e', rfl⟩
    | ok us =>
      have hflip : List.Forall₂ (flip m.MadeUnit) us plans.downloadPaths :=
        List.Forall₂.flip (R := flip m.MadeUnit) (units_ok hus)
      obtain ⟨u, -, clean, hclean, -⟩ := mem_of_forall₂ hflip hx
      rw [hclean] at he
      cases he

end TransferManager

theorem set_eq_self_of_getElem? {α : Type} {l : List α} {i : Nat} {a : α} (h : l[i]? = some a) :
    l.set i a = l := by
  obtain ⟨hi, rfl⟩ := List.getElem?_eq_some_iff.mp h
  exact List.set_getElem_self hi

theorem sum_set_add {l : List Nat} {i a : Nat} (h : l[i]? = some a) (a' : Nat) :
    (l.set i a').sum + a = l.sum + a' := by
  induction l generalizing i with
  | nil => cases h
  | cons x l ih =>
    cases i with
    | zero =>
      simp only [List.getElem?_cons_zero, Option.some.injEq] at h
      subst h
      simp only [List.set_cons_zero, List.sum_cons]
      omega
    | succ i =>
      have := ih (by simpa using h)
      simp only [List.set_cons_succ, List.sum_cons]
      omega

/-! ## One task -/

namespace UnitTask

variable (retry : RetryPolicy)

/-- How many times a task has called fetch: once for every try it made
again, and once in its current try unless it stopped at the head of its loop.
A source that logs its calls sees exactly these (`step_logged`). -/
def fetches (k : UnitTask) : Nat :=
  k.retried.length + match k.stage with
    | .ready | .stopped => 0
    | _ => 1

/-- At most how many steps a task has left: a try takes two steps, one once
its bytes are fetched, and it makes at most `maxRetries + 1` tries. -/
def left (k : UnitTask) : Nat :=
  match k.stage with
  | .ready => 2 * (retry.maxRetries + 1 - k.retried.length)
  | .fetched _ => 2 * (retry.maxRetries - k.retried.length) + 1
  | _ => 0

/-- What holds of a started task at every moment, given whether the token is
raised: it retried at most `maxRetries` times, each time after a passing
failure, and if it gave up or failed, the token is raised. -/
structure Sound (cancelled : Bool) (k : UnitTask) : Prop where
  retries : k.retried.length ≤ retry.maxRetries
  transient : ∀ e ∈ k.retried, e.transient = true
  raised : k.ended = true → k.wrote = false → cancelled = true

variable {retry}

theorem Sound.mono {c c' : Bool} {k : UnitTask} (h : k.Sound retry c) (hc : c = true → c' = true) :
    k.Sound retry c' :=
  ⟨h.retries, h.transient, fun he hw => hc (h.raised he hw)⟩

theorem Sound.fetches_le {c : Bool} {k : UnitTask} (h : k.Sound retry c) : k.fetches ≤ retry.maxRetries + 1 := by
  have := h.retries
  unfold fetches
  split <;> omega

theorem left_le (k : UnitTask) : k.left retry ≤ 2 * (retry.maxRetries + 1) := by
  unfold left
  split <;> omega

theorem Sound.ended_of_left {c : Bool} {k : UnitTask} (h : k.Sound retry c) (hl : k.left retry = 0) :
    k.ended = true := by
  have := h.retries
  unfold left at hl
  unfold ended
  cases hs : k.stage with
  | ready => simp only [hs] at hl; omega
  | fetched bytes => simp [hs] at hl
  | stopped | written _ | failed _ => rfl

end UnitTask

/-! ## One step of a batch -/

namespace TransferBatch

variable {σ : Type} {fetch : Fetch σ} {retry : RetryPolicy} {b : TransferBatch σ} {i : Nat} {k : UnitTask}

theorem endTry_cases (retry : RetryPolicy) (b : TransferBatch σ) (i : Nat) (k : UnitTask) (e : SyncError) :
    (e.transient = true ∧ k.retried.length < retry.maxRetries ∧
      b.endTry retry i k e = { b with tasks := b.tasks.set i { k with retried := k.retried ++ [e], stage := .ready } }) ∨
    b.endTry retry i k e =
      { b with
        tasks := b.tasks.set i { k with stage := .failed e }, cancelled := true,
        progress := b.progress.recordFailed e } := by
  unfold endTry
  by_cases h : e.transient = true ∧ k.retried.length < retry.maxRetries
  · rw [if_pos (by simpa using h)]
    exact .inl ⟨h.1, h.2, rfl⟩
  · rw [if_neg (by simpa using h)]
    exact .inr rfl

theorem advance_of_none (fetch : Fetch σ) (retry : RetryPolicy) (hk : b.tasks[i]? = none) :
    b.advance fetch retry i = b := by
  unfold advance
  rw [hk]

theorem advance_cases (fetch : Fetch σ) (retry : RetryPolicy) (hk : b.tasks[i]? = some k) :
    (k.ended = true ∧ b.advance fetch retry i = b) ∨
    (k.stage = .ready ∧ b.cancelled = true ∧
      b.advance fetch retry i = { b with tasks := b.tasks.set i { k with stage := .stopped } }) ∨
    (∃ bytes s, k.stage = .ready ∧ b.cancelled = false ∧ fetch b.source k.unit.relative = (.ok bytes, s) ∧
      b.advance fetch retry i = { b with source := s, tasks := b.tasks.set i { k with stage := .fetched bytes } }) ∨
    (∃ e s, k.stage = .ready ∧ b.cancelled = false ∧ fetch b.source k.unit.relative = (.error e, s) ∧
      b.advance fetch retry i = endTry retry { b with source := s } i k e) ∨
    (∃ bytes t, k.stage = .fetched bytes ∧ replaceFile b.tree k.unit.destination bytes = .ok t ∧
      b.advance fetch retry i =
        { b with
          tree := t, tasks := b.tasks.set i { k with stage := .written bytes },
          progress := { b.progress with completed := b.progress.completed + 1 } }) ∨
    (∃ bytes e, k.stage = .fetched bytes ∧ replaceFile b.tree k.unit.destination bytes = .error e ∧
      b.advance fetch retry i = endTry retry b i k (.fs e)) := by
  unfold advance
  rw [hk]
  dsimp only
  cases hs : k.stage with
  | ready =>
    cases hc : b.cancelled with
    | true => exact .inr (.inl ⟨rfl, rfl, rfl⟩)
    | false =>
      rcases hf : fetch b.source k.unit.relative with ⟨r, s⟩
      cases r with
      | ok bytes => exact .inr (.inr (.inl ⟨bytes, s, rfl, rfl, rfl, rfl⟩))
      | error e => exact .inr (.inr (.inr (.inl ⟨e, s, rfl, rfl, rfl, rfl⟩)))
  | fetched bytes =>
    dsimp only
    cases hw : replaceFile b.tree k.unit.destination bytes with
    | ok t => exact .inr (.inr (.inr (.inr (.inl ⟨bytes, t, rfl, hw, rfl⟩))))
    | error e => exact .inr (.inr (.inr (.inr (.inr ⟨bytes, e, rfl, hw, rfl⟩))))
  | stopped => exact .inl ⟨by simp [UnitTask.ended, hs], rfl⟩
  | written bytes => exact .inl ⟨by simp [UnitTask.ended, hs], rfl⟩
  | failed e => exact .inl ⟨by simp [UnitTask.ended, hs], rfl⟩

/-- `b'` is `b` after its `i`-th task, which was `k`, moved to `k'`: no other
task and no waiting unit changed, the token only went up, a task not ended
came closer to its end, and the files changed only if the task wrote its
bytes. -/
structure Moves (retry : RetryPolicy) (b b' : TransferBatch σ) (i : Nat) (k k' : UnitTask) : Prop where
  tasks : b'.tasks = b.tasks.set i k'
  unit : k'.unit = k.unit
  waiting : b'.waiting = b.waiting
  raised : b.cancelled = true → b'.cancelled = true
  sound : k'.Sound retry b'.cancelled
  stays : k.ended = true → k' = k
  closer : k.ended = false → k'.left retry < k.left retry
  writes : (b'.tree = b.tree ∧ (k'.wrote = true → k' = k)) ∨
    ∃ bytes, k.stage = .fetched bytes ∧ k' = { k with stage := .written bytes } ∧
      replaceFile b.tree k.unit.destination bytes = .ok b'.tree

theorem endTry_moves {e : SyncError} (hk : k.stage = .ready ∨ ∃ bytes, k.stage = .fetched bytes)
    (hs : k.Sound retry b.cancelled) : ∃ k', Moves retry b (b.endTry retry i k e) i k k' := by
  have hr := hs.retries
  have hnot : k.ended = false := by
    rcases hk with hk | ⟨bytes, hk⟩ <;> simp [UnitTask.ended, hk]
  rcases endTry_cases retry b i k e with ⟨htr, hlt, heq⟩ | heq
  · -- a passing failure with retries left: the task goes back to the head of its loop
    refine ⟨{ k with retried := k.retried ++ [e], stage := .ready },
      { tasks := by rw [heq], unit := rfl, waiting := by rw [heq], raised := fun h => by rw [heq]; exact h,
        sound := ⟨?_, ?_, fun h => by simp [UnitTask.ended] at h⟩, stays := by simp [hnot], closer := ?_,
        writes := .inl ⟨by rw [heq], fun h => by simp [UnitTask.wrote] at h⟩ }⟩
    · simp only [List.length_append, List.length_singleton]
      omega
    · intro e' he'
      rcases List.mem_append.mp he' with he' | he'
      · exact hs.transient e' he'
      · rw [List.mem_singleton.mp he']
        exact htr
    · intro _
      rcases hk with hk | ⟨bytes, hk⟩ <;> simp only [UnitTask.left, hk, List.length_append,
        List.length_singleton] <;> omega
  · -- otherwise the task fails and raises the token
    refine ⟨{ k with stage := .failed e },
      { tasks := by rw [heq], unit := rfl, waiting := by rw [heq], raised := fun _ => by rw [heq],
        sound := ⟨hr, hs.transient, fun _ _ => by rw [heq]⟩, stays := by simp [hnot], closer := ?_,
        writes := .inl ⟨by rw [heq], fun h => by simp [UnitTask.wrote] at h⟩ }⟩
    intro _
    rcases hk with hk | ⟨bytes, hk⟩ <;> simp only [UnitTask.left, hk] <;> omega

theorem advance_moves (fetch : Fetch σ) (hk : b.tasks[i]? = some k) (hs : k.Sound retry b.cancelled) :
    ∃ k', Moves retry b (b.advance fetch retry i) i k k' := by
  have hr := hs.retries
  rcases advance_cases fetch retry hk with
    ⟨hend, heq⟩ | ⟨hst, hc, heq⟩ | ⟨bytes, s, hst, hc, -, heq⟩ | ⟨e, s, hst, hc, -, heq⟩ |
      ⟨bytes, t, hst, hw, heq⟩ | ⟨bytes, e, hst, -, heq⟩
  · -- an ended task stays as it is
    refine ⟨k,
      { tasks := ?_, unit := rfl, waiting := by rw [heq], raised := fun h => by rw [heq]; exact h,
        sound := by rw [heq]; exact hs, stays := fun _ => rfl, closer := fun h => by simp_all,
        writes := .inl ⟨by rw [heq], fun _ => rfl⟩ }⟩
    rw [heq, set_eq_self_of_getElem? hk]
  · -- the token is raised: the task stops
    refine ⟨{ k with stage := .stopped },
      { tasks := by rw [heq], unit := rfl, waiting := by rw [heq], raised := fun h => by rw [heq]; exact h,
        sound := ⟨hr, hs.transient, fun _ _ => by rw [heq]; exact hc⟩,
        stays := fun h => by simp [UnitTask.ended, hst] at h, closer := ?_,
        writes := .inl ⟨by rw [heq], fun h => by simp [UnitTask.wrote] at h⟩ }⟩
    intro _
    simp only [UnitTask.left, hst]
    omega
  · -- the fetch answered bytes
    refine ⟨{ k with stage := .fetched bytes },
      { tasks := by rw [heq], unit := rfl, waiting := by rw [heq], raised := fun h => by rw [heq]; exact h,
        sound := ⟨hr, hs.transient, fun h => by simp [UnitTask.ended] at h⟩,
        stays := fun h => by simp [UnitTask.ended, hst] at h, closer := ?_,
        writes := .inl ⟨by rw [heq], fun h => by simp [UnitTask.wrote] at h⟩ }⟩
    intro _
    simp only [UnitTask.left, hst]
    omega
  · -- the fetch failed; what moved the source is no concern of the task
    rw [heq]
    obtain ⟨k', hm⟩ := endTry_moves (b := { b with source := s }) (e := e) (i := i) (.inl hst) hs
    exact ⟨k', hm.tasks, hm.unit, hm.waiting, hm.raised, hm.sound, hm.stays, hm.closer, hm.writes⟩
  · -- the bytes were written
    refine ⟨{ k with stage := .written bytes },
      { tasks := by rw [heq], unit := rfl, waiting := by rw [heq], raised := fun h => by rw [heq]; exact h,
        sound := ⟨hr, hs.transient, fun _ h => by simp [UnitTask.wrote] at h⟩,
        stays := fun h => by simp [UnitTask.ended, hst] at h, closer := ?_,
        writes := .inr ⟨bytes, hst, rfl, by rw [heq]; exact hw⟩ }⟩
    intro _
    simp only [UnitTask.left, hst]
    omega
  · -- the write failed
    rw [heq]
    exact endTry_moves (.inr ⟨bytes, hst⟩) hs

theorem endTry_frame (b : TransferBatch σ) (i : Nat) (k : UnitTask) (e : SyncError) :
    (b.endTry retry i k e).tasks.length = b.tasks.length ∧ (b.endTry retry i k e).waiting = b.waiting := by
  rcases endTry_cases retry b i k e with ⟨-, -, h⟩ | h <;> simp [h]

/-- An advance touches one task at most: the number of tasks and the waiting
units stay. -/
theorem advance_frame (fetch : Fetch σ) (retry : RetryPolicy) (b : TransferBatch σ) (i : Nat) :
    (b.advance fetch retry i).tasks.length = b.tasks.length ∧ (b.advance fetch retry i).waiting = b.waiting := by
  cases hk : b.tasks[i]? with
  | none =>
    rw [advance_of_none fetch retry hk]
    exact ⟨rfl, rfl⟩
  | some k =>
    rcases advance_cases fetch retry hk with
      ⟨-, h⟩ | ⟨-, -, h⟩ | ⟨_, _, -, -, -, h⟩ | ⟨e, s, -, -, -, h⟩ | ⟨_, _, -, -, h⟩ | ⟨_, e, -, -, h⟩
    · simp [h]
    · simp [h]
    · simp [h]
    · rw [h]
      exact endTry_frame { b with source := s } i k e
    · simp [h]
    · rw [h]
      exact endTry_frame b i k _

/-! ## Runs -/

/-- What holds of a batch over the units `us` at every moment of a run: the
started units are the first units, in order, and the rest wait unless the
loop stopped on the token; every task is sound. -/
structure Sound (retry : RetryPolicy) (us : List TransferUnit) (b : TransferBatch σ) : Prop where
  started : ∃ rest, b.tasks.map UnitTask.unit ++ rest = us ∧
    (b.waiting = rest ∨ b.waiting = [] ∧ b.cancelled = true)
  tasks : ∀ k ∈ b.tasks, k.Sound retry b.cancelled

variable {us : List TransferUnit} {b' : TransferBatch σ} {k' : UnitTask}

theorem Moves.keeps_sound (hm : Moves retry b b' i k k') (hk : b.tasks[i]? = some k) (hb : b.Sound retry us) :
    b'.Sound retry us := by
  obtain ⟨rest, happ, hwait⟩ := hb.started
  have hunits : b'.tasks.map UnitTask.unit = b.tasks.map UnitTask.unit := by
    rw [hm.tasks, List.map_set, hm.unit]
    exact set_eq_self_of_getElem? (by simp [hk])
  refine ⟨⟨rest, hunits ▸ happ, ?_⟩, fun k₁ hk₁ => ?_⟩
  · rw [hm.waiting]
    exact hwait.imp_right fun h => ⟨h.1, hm.raised h.2⟩
  · rw [hm.tasks] at hk₁
    rcases List.mem_or_eq_of_mem_set hk₁ with hk₁ | rfl
    · exact (hb.tasks k₁ hk₁).mono hm.raised
    · exact hm.sound

theorem advance_sound (hb : b.Sound retry us) : (b.advance fetch retry i).Sound retry us := by
  cases hk : b.tasks[i]? with
  | none =>
    rw [advance_of_none fetch retry hk]
    exact hb
  | some k =>
    obtain ⟨k', hm⟩ := advance_moves fetch hk (hb.tasks k (List.mem_of_getElem? hk))
    exact hm.keeps_sound hk hb

/-- The loop stops on a raised token, and otherwise starts its next unit when
a permit is free. -/
theorem start_cases (cap : Nat) (b : TransferBatch σ) :
    b.start cap = b ∨
    (b.cancelled = true ∧ b.start cap = { b with waiting := [] }) ∨
    (∃ u rest, b.waiting = u :: rest ∧ b.cancelled = false ∧
      (b.tasks.filter fun k => !k.ended).length < cap ∧
      b.start cap = { b with waiting := rest, tasks := b.tasks ++ [{ unit := u }] }) := by
  unfold start
  cases hw : b.waiting with
  | nil => exact .inl rfl
  | cons u rest =>
    dsimp only
    cases hc : b.cancelled with
    | true => exact .inr (.inl ⟨rfl, rfl⟩)
    | false =>
      by_cases hcap : (b.tasks.filter fun k => !k.ended).length < cap
      · exact .inr (.inr ⟨u, rest, rfl, rfl, hcap, by simp [hcap]⟩)
      · exact .inl (by simp [hcap])

theorem start_sound (cap : Nat) (hb : b.Sound retry us) : (b.start cap).Sound retry us := by
  obtain ⟨rest, happ, hwait⟩ := hb.started
  rcases start_cases cap b with h | ⟨hc, h⟩ | ⟨u, rest', hw, -, -, h⟩ <;> rw [h]
  · exact hb
  · exact ⟨⟨rest, happ, .inr ⟨rfl, hc⟩⟩, hb.tasks⟩
  · -- the next unit is the first of those waiting
    have hrest : rest = u :: rest' := by
      rcases hwait with hwait | ⟨hwait, -⟩
      · rw [← hwait, hw]
      · rw [hw] at hwait
        cases hwait
    refine ⟨⟨rest', by simp [← happ, hrest], .inl rfl⟩, fun k hk => ?_⟩
    rcases List.mem_append.mp hk with hk | hk
    · exact hb.tasks k hk
    · rw [List.mem_singleton.mp hk]
      exact ⟨by simp, by simp, fun h => by simp [UnitTask.ended] at h⟩

theorem step_sound (m : TransferManager) (fetch : Fetch σ) (hb : b.Sound m.retry us) (ev : TransferEvent) :
    (b.step m fetch ev).Sound m.retry us := by
  cases ev with
  | start => exact start_sound _ hb
  | advance i => exact advance_sound hb
  | cancel =>
    obtain ⟨rest, happ, hwait⟩ := hb.started
    exact ⟨⟨rest, happ, hwait.imp_right fun h => ⟨h.1, rfl⟩⟩, fun k hk => (hb.tasks k hk).mono fun _ => rfl⟩

theorem run_cons (m : TransferManager) (fetch : Fetch σ) (b : TransferBatch σ) (ev : TransferEvent)
    (evs : List TransferEvent) : b.run m fetch (ev :: evs) = (b.step m fetch ev).run m fetch evs := rfl

theorem run_append (m : TransferManager) (fetch : Fetch σ) (b : TransferBatch σ) (evs evs' : List TransferEvent) :
    b.run m fetch (evs ++ evs') = (b.run m fetch evs).run m fetch evs' := by
  simp [run, List.foldl_append]

/-- What every step keeps, every run keeps. -/
theorem run_preserves (m : TransferManager) (fetch : Fetch σ) (P : TransferBatch σ → Prop)
    (hstep : ∀ c ev, P c → P (c.step m fetch ev)) (evs : List TransferEvent) (h : P b) : P (b.run m fetch evs) := by
  induction evs generalizing b with
  | nil => exact h
  | cons ev evs ih =>
    rw [run_cons]
    exact ih (hstep b ev h)

/-- Every run keeps a batch sound, whatever the schedule. -/
theorem run_sound (m : TransferManager) (fetch : Fetch σ) (evs : List TransferEvent) (hb : b.Sound m.retry us) :
    (b.run m fetch evs).Sound m.retry us :=
  run_preserves m fetch (fun c => c.Sound m.retry us) (fun _ ev hc => step_sound m fetch hc ev) evs hb

theorem run_invariant (m : TransferManager) (fetch : Fetch σ) (P : TransferBatch σ → Prop)
    (hstep : ∀ c ev, c.Sound m.retry us → P c → P (c.step m fetch ev)) (evs : List TransferEvent)
    (hb : b.Sound m.retry us) (h : P b) : P (b.run m fetch evs) :=
  (run_preserves m fetch (fun c => c.Sound m.retry us ∧ P c)
    (fun c ev hc => ⟨step_sound m fetch hc.1 ev, hstep c ev hc.1 hc.2⟩) evs ⟨hb, h⟩).2

theorem step_keeps_ended (m : TransferManager) (fetch : Fetch σ) (hb : b.Sound m.retry us) {j : Nat}
    (hk : b.tasks[j]? = some k) (hend : k.ended = true) (ev : TransferEvent) :
    (b.step m fetch ev).tasks[j]? = some k := by
  cases ev with
  | start =>
    have hj : j < b.tasks.length := (List.getElem?_eq_some_iff.mp hk).1
    rcases start_cases m.capacity b with h | ⟨-, h⟩ | ⟨u, rest, -, -, -, h⟩ <;>
      simp only [step, h, List.getElem?_append_left hj, hk]
  | advance i =>
    cases hi : b.tasks[i]? with
    | none =>
      show (b.advance fetch m.retry i).tasks[j]? = some k
      rw [advance_of_none fetch m.retry hi]
      exact hk
    | some k₁ =>
      obtain ⟨k₁', hm⟩ := advance_moves fetch hi (hb.tasks k₁ (List.mem_of_getElem? hi))
      show (b.advance fetch m.retry i).tasks[j]? = some k
      rw [hm.tasks]
      by_cases hij : i = j
      · subst hij
        rw [hk] at hi
        cases hi
        rw [hm.stays hend, set_eq_self_of_getElem? hk]
        exact hk
      · rw [List.getElem?_set_ne hij]
        exact hk
  | cancel => exact hk

theorem run_keeps_ended (m : TransferManager) (fetch : Fetch σ) (evs : List TransferEvent) (hb : b.Sound m.retry us)
    {j : Nat} (hk : b.tasks[j]? = some k) (hend : k.ended = true) : (b.run m fetch evs).tasks[j]? = some k :=
  run_invariant m fetch (fun c => c.tasks[j]? = some k) (fun _ ev hc hk => step_keeps_ended m fetch hc hk hend ev)
    evs hb hk

theorem start_of_raised (cap : Nat) (hc : b.cancelled = true) : b.start cap = { b with waiting := [] } := by
  unfold start
  cases hw : b.waiting with
  | nil => cases b; simp_all
  | cons u rest => simp [hc]

theorem start_of_free {cap : Nat} {u : TransferUnit} {rest : List TransferUnit} (hw : b.waiting = u :: rest)
    (hc : b.cancelled = false) (hcap : (b.tasks.filter fun k => !k.ended).length < cap) :
    b.start cap = { b with waiting := rest, tasks := b.tasks ++ [{ unit := u }] } := by
  unfold start
  rw [hw]
  simp [hc, hcap]

/-! ## Finishing a batch -/

/-- A batch whose loop has started all it will and whose tasks have all ended. -/
structure Done (b : TransferBatch σ) : Prop where
  waiting : b.waiting = []
  ended : ∀ k ∈ b.tasks, k.ended = true

variable {m : TransferManager}

theorem step_done (hb : b.Sound m.retry us) (hd : b.Done) (ev : TransferEvent) : (b.step m fetch ev).Done := by
  cases ev with
  | start =>
    show (b.start m.capacity).Done
    rcases start_cases m.capacity b with h | ⟨-, h⟩ | ⟨u, rest, hw, -, -, -⟩
    · rw [h]
      exact hd
    · rw [h]
      exact ⟨rfl, hd.ended⟩
    · rw [hd.waiting] at hw
      cases hw
  | advance i =>
    show (b.advance fetch m.retry i).Done
    cases hk : b.tasks[i]? with
    | none =>
      rw [advance_of_none fetch m.retry hk]
      exact hd
    | some k =>
      obtain ⟨k', hm⟩ := advance_moves fetch hk (hb.tasks k (List.mem_of_getElem? hk))
      have hkeep : (b.advance fetch m.retry i).tasks = b.tasks := by
        rw [hm.tasks, hm.stays (hd.ended k (List.mem_of_getElem? hk)), set_eq_self_of_getElem? hk]
      exact ⟨hm.waiting.trans hd.waiting, hkeep ▸ hd.ended⟩
  | cancel => exact ⟨hd.waiting, hd.ended⟩

theorem run_done (evs : List TransferEvent) (hb : b.Sound m.retry us) (hd : b.Done) : (b.run m fetch evs).Done :=
  run_invariant m fetch Done (fun _ ev hc hd => step_done hc hd ev) evs hb hd

theorem run_replicate_ended (fetch : Fetch σ) (hb : b.Sound m.retry us) (hk : b.tasks[i]? = some k) {n : Nat}
    (hn : k.left m.retry ≤ n) :
    ∃ k', (b.run m fetch (List.replicate n (.advance i))).tasks[i]? = some k' ∧ k'.ended = true := by
  induction n generalizing b k with
  | zero => exact ⟨k, hk, (hb.tasks k (List.mem_of_getElem? hk)).ended_of_left (by omega)⟩
  | succ n ih =>
    by_cases hend : k.ended = true
    · exact ⟨k, run_keeps_ended m fetch _ hb hk hend, hend⟩
    · -- one step brings the task closer to its end
      obtain ⟨k', hm⟩ := advance_moves fetch hk (hb.tasks k (List.mem_of_getElem? hk))
      have hi : i < b.tasks.length := (List.getElem?_eq_some_iff.mp hk).1
      have hk' : (b.advance fetch m.retry i).tasks[i]? = some k' := by
        rw [hm.tasks, List.getElem?_set_self hi]
      have hcloser := hm.closer (by simpa using hend)
      rw [List.replicate_succ, run_cons]
      exact ih (hm.keeps_sound hk hb) hk' (by omega)

theorem mem_advanceEach {steps n : Nat} {ev : TransferEvent} (h : ev ∈ advanceEach steps n) :
    ∃ i, ev = .advance i := by
  induction n with
  | zero => cases h
  | succ n ih =>
    rcases List.mem_append.mp h with h | h
    · exact ih h
    · exact ⟨n, (List.mem_replicate.mp h).2⟩

theorem run_advances_frame (fetch : Fetch σ) (evs : List TransferEvent) (h : ∀ ev ∈ evs, ∃ i, ev = .advance i) :
    (b.run m fetch evs).tasks.length = b.tasks.length ∧ (b.run m fetch evs).waiting = b.waiting := by
  induction evs generalizing b with
  | nil => exact ⟨rfl, rfl⟩
  | cons ev evs ih =>
    obtain ⟨i, rfl⟩ := h ev List.mem_cons_self
    rw [run_cons]
    obtain ⟨hlen, hwait⟩ := ih (b := b.advance fetch m.retry i) fun ev hev => h ev (List.mem_cons_of_mem _ hev)
    exact ⟨hlen.trans (advance_frame fetch m.retry b i).1, hwait.trans (advance_frame fetch m.retry b i).2⟩

theorem run_replicate_all_ended (fetch : Fetch σ) (hb : b.Sound m.retry us) {j : Nat} (hk : b.tasks[j]? = some k)
    (hend : ∀ i < b.tasks.length, i ≠ j → ∀ k₀, b.tasks[i]? = some k₀ → k₀.ended = true) :
    ∀ k' ∈ (b.run m fetch (List.replicate (2 * (m.retry.maxRetries + 1)) (.advance j))).tasks, k'.ended = true := by
  obtain ⟨kj, hkj, hkjend⟩ := run_replicate_ended fetch hb hk (UnitTask.left_le k)
  have hlen := (run_advances_frame (m := m) (b := b) fetch (List.replicate (2 * (m.retry.maxRetries + 1)) (.advance j))
    fun ev hev => ⟨_, (List.mem_replicate.mp hev).2⟩).1
  intro k' hk'
  obtain ⟨i, hi⟩ := List.mem_iff_getElem?.mp hk'
  by_cases hij : i = j
  · subst hij
    rw [hkj] at hi
    cases hi
    exact hkjend
  · -- any other task had ended, and stays as it was
    have hilt : i < b.tasks.length := hlen ▸ (List.getElem?_eq_some_iff.mp hi).1
    obtain ⟨k₀, hk₀⟩ : ∃ k₀, b.tasks[i]? = some k₀ := ⟨_, List.getElem?_eq_some_iff.mpr ⟨hilt, rfl⟩⟩
    have hk₀end := hend i hilt hij k₀ hk₀
    rw [run_keeps_ended m fetch _ hb hk₀ hk₀end] at hi
    cases hi
    exact hk₀end

theorem run_advanceEach (fetch : Fetch σ) (hb : b.Sound m.retry us) {n : Nat} (hn : n ≤ b.tasks.length) :
    ∀ j < n, ∃ k, (b.run m fetch (advanceEach (2 * (m.retry.maxRetries + 1)) n)).tasks[j]? = some k ∧
      k.ended = true := by
  induction n with
  | zero => intro j hj; omega
  | succ n ih =>
    have hc := run_sound m fetch (advanceEach (2 * (m.retry.maxRetries + 1)) n) hb
    have hlen := (run_advances_frame (m := m) (b := b) fetch
      (advanceEach (2 * (m.retry.maxRetries + 1)) n) fun _ h => mem_advanceEach h).1
    intro j hj
    rw [advanceEach, run_append]
    rcases Nat.lt_succ_iff_lt_or_eq.mp hj with hj | rfl
    · obtain ⟨k, hk, hend⟩ := ih (by omega) j hj
      exact ⟨k, run_keeps_ended m fetch _ hc hk hend, hend⟩
    · -- the `j`-th task is the one these steps are for
      obtain ⟨k, hk⟩ : ∃ k, (b.run m fetch (advanceEach (2 * (m.retry.maxRetries + 1)) j)).tasks[j]? = some k :=
        List.getElem?_eq_some_iff.mpr ⟨by omega, rfl⟩ |> fun h => ⟨_, h⟩
      exact run_replicate_ended fetch hc hk (UnitTask.left_le k)

/-- Starting the waiting units one by one, each run to its end, finishes a
batch whose tasks have all ended. -/
theorem startEach_done (fetch : Fetch σ) : ∀ (w : List TransferUnit) (c : TransferBatch σ), c.Sound m.retry us →
    (∀ k ∈ c.tasks, k.ended = true) → c.waiting = w →
    (c.run m fetch (startEach (2 * (m.retry.maxRetries + 1)) c.tasks.length w)).Done
  | [], c, _, hend, hw => ⟨hw, hend⟩
  | u :: rest, c, hc, hend, hw => by
    simp only [startEach]
    rw [run_append, run_cons]
    cases hcan : c.cancelled with
    | true =>
      -- the loop stops: nothing more starts
      have hd : (c.step m fetch .start).Done := by
        show (c.start m.capacity).Done
        rw [start_of_raised _ hcan]
        exact ⟨rfl, hend⟩
      have hc₁ := step_sound m fetch hc .start
      exact run_done _ (run_sound m fetch _ hc₁) (run_done _ hc₁ hd)
    | false =>
      -- every permit is free, so the next unit starts as the next task
      have hfree : (c.tasks.filter fun k => !k.ended).length < m.capacity := by
        rw [List.filter_eq_nil_iff.mpr fun k hk => by simp [hend k hk]]
        simp [TransferManager.capacity]
      have hstart : c.step m fetch .start = { c with waiting := rest, tasks := c.tasks ++ [{ unit := u }] } :=
        start_of_free hw hcan hfree
      have hc₁ := step_sound m fetch hc .start
      rw [hstart] at hc₁ ⊢
      set c₁ : TransferBatch σ := { c with waiting := rest, tasks := c.tasks ++ [{ unit := u }] } with hc₁def
      have hframe := run_advances_frame (m := m) (b := c₁) fetch
        (List.replicate (2 * (m.retry.maxRetries + 1)) (.advance c.tasks.length))
        fun ev hev => ⟨_, (List.mem_replicate.mp hev).2⟩
      have hlen : (c₁.run m fetch (List.replicate (2 * (m.retry.maxRetries + 1))
          (.advance c.tasks.length))).tasks.length = c.tasks.length + 1 := by
        rw [hframe.1]
        simp [c₁]
      rw [← hlen]
      -- the earlier tasks had ended, and the new one runs to its end
      refine startEach_done fetch rest _ (run_sound m fetch _ hc₁)
        (run_replicate_all_ended fetch hc₁ List.getElem?_concat_length fun j hj hjne k₀ hk₀ => ?_) hframe.2
      have hjlt : j < c.tasks.length := by
        simp only [c₁, List.length_append, List.length_singleton] at hj
        omega
      simp only [c₁, List.getElem?_append_left hjlt] at hk₀
      exact hend k₀ (List.mem_of_getElem? hk₀)

/-- The events that finish a batch end every task and leave nothing waiting. -/
theorem finishing_done (hb : b.Sound m.retry us) : (b.run m fetch (b.finishing m.retry)).Done := by
  unfold finishing
  dsimp only
  rw [run_append]
  have hframe := run_advances_frame (m := m) (b := b) fetch
    (advanceEach (2 * (m.retry.maxRetries + 1)) b.tasks.length) fun _ h => mem_advanceEach h
  have hended := run_advanceEach fetch hb (le_refl b.tasks.length)
  have hdone := startEach_done fetch _ _ (run_sound m fetch _ hb) (fun k hk => ?_) hframe.2
  · rw [hframe.1] at hdone
    exact hdone
  · obtain ⟨j, hj⟩ := List.mem_iff_getElem?.mp hk
    have hjlt : j < b.tasks.length := hframe.1 ▸ (List.getElem?_eq_some_iff.mp hj).1
    obtain ⟨k', hk', hend⟩ := hended j hjlt
    rw [hk'] at hj
    cases hj
    exact hend

/-! ## Where the bytes come from -/

/-- The bytes a task has fetched or written are an answer its source gave for
its path. -/
def Answered (fetch : Fetch σ) (b : TransferBatch σ) : Prop :=
  ∀ k ∈ b.tasks, ∀ bytes, (k.stage = .fetched bytes ∨ k.stage = .written bytes) →
    ∃ s, (fetch s k.unit.relative).1 = .ok bytes

theorem endTry_answered {e : SyncError} (ha : b.Answered fetch) : (b.endTry retry i k e).Answered fetch := by
  intro k₁ hk₁ bytes hb
  rcases endTry_cases retry b i k e with ⟨-, -, h⟩ | h <;> rw [h] at hk₁ <;>
    rcases List.mem_or_eq_of_mem_set hk₁ with hk₁ | rfl
  · exact ha k₁ hk₁ bytes hb
  · simp at hb
  · exact ha k₁ hk₁ bytes hb
  · simp at hb

theorem advance_answered (ha : b.Answered fetch) : (b.advance fetch retry i).Answered fetch := by
  cases hk : b.tasks[i]? with
  | none =>
    rw [advance_of_none fetch retry hk]
    exact ha
  | some k =>
    rcases advance_cases fetch retry hk with
      ⟨-, heq⟩ | ⟨-, -, heq⟩ | ⟨bytes₀, s, -, -, hf, heq⟩ | ⟨e, s, -, -, -, heq⟩ |
        ⟨bytes₀, t, hst, -, heq⟩ | ⟨bytes₀, e, -, -, heq⟩
    · rw [heq]
      exact ha
    · intro k₁ hk₁ bytes hb
      rw [heq] at hk₁
      rcases List.mem_or_eq_of_mem_set hk₁ with hk₁ | rfl
      · exact ha k₁ hk₁ bytes hb
      · simp at hb
    · -- the fetch answered these bytes from the source as it was
      intro k₁ hk₁ bytes hb
      rw [heq] at hk₁
      rcases List.mem_or_eq_of_mem_set hk₁ with hk₁ | rfl
      · exact ha k₁ hk₁ bytes hb
      · simp only [UnitStage.fetched.injEq, reduceCtorEq, or_false] at hb
        exact ⟨b.source, by rw [hf, ← hb]⟩
    · rw [heq]
      exact endTry_answered (b := { b with source := s }) ha
    · -- the bytes written are those fetched before
      intro k₁ hk₁ bytes hb
      rw [heq] at hk₁
      rcases List.mem_or_eq_of_mem_set hk₁ with hk₁ | rfl
      · exact ha k₁ hk₁ bytes hb
      · simp only [reduceCtorEq, UnitStage.written.injEq, false_or] at hb
        exact ha k (List.mem_of_getElem? hk) bytes (.inl (hb ▸ hst))
    · rw [heq]
      exact endTry_answered ha

theorem step_answered (m : TransferManager) (ha : b.Answered fetch) (ev : TransferEvent) :
    (b.step m fetch ev).Answered fetch := by
  cases ev with
  | start =>
    show (b.start m.capacity).Answered fetch
    rcases start_cases m.capacity b with h | ⟨-, h⟩ | ⟨u, rest, -, -, -, h⟩ <;> rw [h]
    · exact ha
    · exact ha
    · intro k hk bytes hb
      rcases List.mem_append.mp hk with hk | hk
      · exact ha k hk bytes hb
      · rw [List.mem_singleton.mp hk] at hb
        simp at hb
  | advance i => exact advance_answered ha
  | cancel => exact ha

theorem run_answered (m : TransferManager) (evs : List TransferEvent) (ha : b.Answered fetch) :
    (b.run m fetch evs).Answered fetch :=
  run_preserves m fetch (Answered fetch) (fun _ ev ha => step_answered m ha ev) evs ha

/-! ## Calls of the source -/

/-- A source that also logs every path it is asked for. -/
def logCalls (fetch : Fetch σ) : Fetch (σ × List String) := fun s p =>
  ((fetch s.1 p).1, ((fetch s.1 p).2, s.2 ++ [p]))

/-- How often the tasks of `l` for the path `p` fetched it. -/
def callsFor (l : List UnitTask) (p : String) : Nat :=
  (l.map fun k => if k.unit.relative = p then k.fetches else 0).sum

theorem callsFor_set {l : List UnitTask} {k' : UnitTask} (hk : l[i]? = some k) (hu : k'.unit = k.unit) (p : String) :
    callsFor (l.set i k') p + (if k.unit.relative = p then k.fetches else 0) =
      callsFor l p + (if k.unit.relative = p then k'.fetches else 0) := by
  unfold callsFor
  have hget : (l.map fun k => if k.unit.relative = p then k.fetches else 0)[i]? =
      some (if k.unit.relative = p then k.fetches else 0) := by
    simp [hk]
  rw [List.map_set, hu]
  exact sum_set_add hget _

theorem callsFor_append_ready (l : List UnitTask) (u : TransferUnit) (p : String) :
    callsFor (l ++ [{ unit := u }]) p = callsFor l p := by
  simp [callsFor, UnitTask.fetches]

/-- The tasks of a path, each fetching at most `c` times, fetch it at most `c`
times each. -/
theorem callsFor_le {l : List UnitTask} {c : Nat} (h : ∀ k ∈ l, k.fetches ≤ c) (p : String) :
    callsFor l p ≤ l.countP (·.unit.relative = p) * c := by
  induction l with
  | nil => simp [callsFor]
  | cons k l ih =>
    have hk := h k List.mem_cons_self
    have hl := ih fun k' hk' => h k' (List.mem_cons_of_mem _ hk')
    unfold callsFor at hl ⊢
    by_cases hp : k.unit.relative = p <;> simp [hp] at hl ⊢ <;> nlinarith

/-- The log of a logging source counts, for every path, the fetches of the
tasks for it. -/
def Logged (b : TransferBatch (σ × List String)) : Prop :=
  ∀ p, b.source.2.count p = callsFor b.tasks p

theorem Logged.set {b : TransferBatch (σ × List String)} (hl : b.Logged) (hk : b.tasks[i]? = some k) {k' : UnitTask}
    (hu : k'.unit = k.unit) {n : Nat} (hf : k'.fetches = k.fetches + n) {log : List String}
    (hlog : log = b.source.2 ++ List.replicate n k.unit.relative) (p : String) :
    log.count p = callsFor (b.tasks.set i k') p := by
  have hs := callsFor_set hk hu p
  rw [hlog, List.count_append, List.count_replicate, hl p]
  by_cases hp : k.unit.relative = p
  · simp only [hp, beq_self_eq_true, if_true] at hs ⊢
    omega
  · simp only [hp, if_false] at hs
    simp only [beq_iff_eq, hp, if_false]
    omega

theorem endTry_fetches (retry : RetryPolicy) (b : TransferBatch σ) (i : Nat) (k : UnitTask) (e : SyncError) :
    (b.endTry retry i k e).source = b.source ∧ ∃ k', (b.endTry retry i k e).tasks = b.tasks.set i k' ∧
      k'.unit = k.unit ∧ k'.fetches = k.retried.length + 1 := by
  rcases endTry_cases retry b i k e with ⟨-, -, h⟩ | h <;> rw [h] <;>
    exact ⟨rfl, _, rfl, rfl, by simp [UnitTask.fetches]⟩

theorem advance_logged {b : TransferBatch (σ × List String)} (hl : b.Logged) :
    (b.advance (logCalls fetch) retry i).Logged := by
  cases hk : b.tasks[i]? with
  | none =>
    rw [advance_of_none (logCalls fetch) retry hk]
    exact hl
  | some k =>
    rcases advance_cases (logCalls fetch) retry hk with
      ⟨-, heq⟩ | ⟨hst, -, heq⟩ | ⟨bytes, s, hst, -, hf, heq⟩ | ⟨e, s, hst, -, hf, heq⟩ |
        ⟨bytes, t, hst, -, heq⟩ | ⟨bytes, e, hst, -, heq⟩ <;> rw [heq]
    · exact hl
    · intro p
      refine hl.set hk ?_ (n := 0) ?_ ?_ p <;> simp [UnitTask.fetches, hst]
    · -- the fetch answered: one call, logged
      simp only [logCalls, Prod.mk.injEq] at hf
      intro p
      refine hl.set hk ?_ (n := 1) ?_ ?_ p <;> simp [UnitTask.fetches, hst, ← hf.2]
    · -- the fetch failed: one call, logged
      simp only [logCalls, Prod.mk.injEq] at hf
      obtain ⟨hsrc, k', htasks, hu, hk'⟩ := endTry_fetches retry { b with source := s } i k e
      intro p
      rw [hsrc, htasks]
      refine hl.set hk hu (n := 1) ?_ ?_ p
      · rw [hk']
        simp [UnitTask.fetches, hst]
      · simp [← hf.2]
    · intro p
      refine hl.set hk ?_ (n := 0) ?_ ?_ p <;> simp [UnitTask.fetches, hst]
    · obtain ⟨hsrc, k', htasks, hu, hk'⟩ := endTry_fetches retry b i k (.fs e)
      intro p
      rw [hsrc, htasks]
      refine hl.set hk hu (n := 0) ?_ ?_ p
      · rw [hk']
        simp [UnitTask.fetches, hst]
      · simp

theorem step_logged (m : TransferManager) {b : TransferBatch (σ × List String)} (hl : b.Logged) (ev : TransferEvent) :
    (b.step m (logCalls fetch) ev).Logged := by
  cases ev with
  | start =>
    show (b.start m.capacity).Logged
    rcases start_cases m.capacity b with h | ⟨-, h⟩ | ⟨u, rest, -, -, -, h⟩ <;> rw [h]
    · exact hl
    · exact hl
    · -- a started task has called nothing yet
      intro p
      rw [callsFor_append_ready]
      exact hl p
  | advance i => exact advance_logged hl
  | cancel => exact hl

/-! ## What an ended batch reports -/

theorem UnitTask.failure_of_wrote {k : UnitTask} (h : k.wrote = true) : k.failure = none := by
  unfold UnitTask.wrote at h
  unfold UnitTask.failure
  split <;> simp_all

theorem length_wrote_add_failures_le (l : List UnitTask) :
    (l.filter UnitTask.wrote).length + (l.filterMap UnitTask.failure).length ≤ l.length := by
  induction l with
  | nil => simp
  | cons k l ih =>
    rw [List.filterMap_cons]
    cases hw : k.wrote with
    | true =>
      rw [UnitTask.failure_of_wrote hw, List.filter_cons_of_pos hw]
      simp only [List.length_cons]
      omega
    | false =>
      rw [List.filter_cons_of_neg (by simp [hw])]
      cases k.failure <;> simp only [List.length_cons] <;> omega

theorem inPlace_le_completed (b : TransferBatch σ) : b.inPlace ≤ b.completed := by
  unfold inPlace completed
  induction b.tasks with
  | nil => simp
  | cons k l ih =>
    by_cases hw : k.wrote = true <;> by_cases hs : k.unit.staged = true <;>
      simp [hw, hs] <;> omega

theorem completed_add_failures_le (b : TransferBatch σ) : b.completed + b.failures.length ≤ b.tasks.length :=
  length_wrote_add_failures_le b.tasks

theorem Sound.length_le (hb : b.Sound retry us) : b.tasks.length ≤ us.length := by
  obtain ⟨rest, happ, -⟩ := hb.started
  rw [← happ, List.length_append, List.length_map]
  omega

theorem Done.units_of_down (hb : b.Sound retry us) (hd : b.Done) (hc : b.cancelled = false) :
    b.tasks.map UnitTask.unit = us := by
  obtain ⟨rest, happ, hw⟩ := hb.started
  rcases hw with hw | ⟨-, hc'⟩
  · rw [← hw, hd.waiting, List.append_nil] at happ
    exact happ
  · rw [hc] at hc'
    cases hc'

theorem Done.wrote_of_down (hb : b.Sound retry us) (hd : b.Done) (hc : b.cancelled = false) :
    ∀ k ∈ b.tasks, k.wrote = true := by
  intro k hk
  by_contra hw
  have := (hb.tasks k hk).raised (hd.ended k hk) (by simpa using hw)
  rw [hc] at this
  cases this

theorem completed_of_wrote (h : ∀ k ∈ b.tasks, k.wrote = true) : b.completed = b.tasks.length := by
  unfold completed
  rw [List.filter_eq_self.mpr h]

end TransferBatch

namespace TransferManager

variable {σ : Type} {m : TransferManager} {fetch : Fetch σ}

theorem sound_initial (retry : RetryPolicy) (us : List TransferUnit) (t : FileTree) (source : σ) (cancelled : Bool) :
    TransferBatch.Sound retry us
      ({ tree := t, source, cancelled, progress := { total := us.length }, waiting := us } : TransferBatch σ) :=
  ⟨⟨us, by simp, .inl rfl⟩, by simp⟩

/-- What every step keeps of a sound batch, a whole run over the units keeps:
the schedule's events, then those that finish the batch. -/
theorem runBatch_invariant (P : TransferBatch σ → Prop) {us : List TransferUnit}
    (hstep : ∀ c ev, c.Sound m.retry us → P c → P (c.step m fetch ev)) (source : σ) (cancelled : Bool)
    (schedule : List TransferEvent) (t : FileTree)
    (h : P { tree := t, source, cancelled, progress := { total := us.length }, waiting := us }) :
    P (m.runBatch fetch us source cancelled schedule t) := by
  unfold runBatch
  dsimp only
  have h₀ := sound_initial m.retry us t source cancelled
  exact TransferBatch.run_invariant m fetch P hstep _ (TransferBatch.run_sound m fetch schedule h₀)
    (TransferBatch.run_invariant m fetch P hstep schedule h₀ h)

/-- Whatever the schedule, a batch ends sound and finished, with answers of
its source as the bytes it wrote. -/
theorem runBatch_sound_done (fetch : Fetch σ) (us : List TransferUnit) (source : σ) (cancelled : Bool)
    (schedule : List TransferEvent) (t : FileTree) :
    (m.runBatch fetch us source cancelled schedule t).Sound m.retry us ∧
      (m.runBatch fetch us source cancelled schedule t).Done ∧
      (m.runBatch fetch us source cancelled schedule t).Answered fetch := by
  have hsound := sound_initial m.retry us t source cancelled
  refine ⟨runBatch_invariant (fun c => c.Sound m.retry us) (fun _ ev hc _ => TransferBatch.step_sound m fetch hc ev)
    source cancelled schedule t hsound, ?_,
    runBatch_invariant (TransferBatch.Answered fetch) (fun _ ev _ ha => TransferBatch.step_answered m ha ev)
      source cancelled schedule t (by simp [TransferBatch.Answered])⟩
  unfold runBatch
  exact TransferBatch.finishing_done (TransferBatch.run_sound m fetch schedule hsound)

theorem execute_of_units {plans : PlanSet} {us : List TransferUnit} (h : m.units plans = .ok us) (source : σ)
    (cancelled : Bool) (schedule : List TransferEvent) (t : FileTree) :
    m.execute plans fetch source cancelled schedule t =
      .ok (let b := m.runBatch fetch us source cancelled schedule (m.createDirectories plans t).2
        let staged := (us.filter (·.staged)).length
        ⟨if b.cancelled then .cancelled b.completed b.inPlace b.failures
          else .completed ⟨b.completed, staged, us.length - staged, (m.createDirectories plans t).1⟩,
          b.progress, b.tree, b.source, b.cancelled, b.tasks⟩) := by
  simp only [execute, h, bind, Except.bind, pure, Except.pure]

/-- With a source that logs its calls, each path is fetched at most
`maxRetries + 1` times for every unit of it, whatever the schedule: the
fetches of a task are the calls made for it. -/
theorem execute_calls_le {plans : PlanSet} {us : List TransferUnit} (h : m.units plans = .ok us) (source : σ)
    (cancelled : Bool) (schedule : List TransferEvent) (t : FileTree) :
    ∃ run, m.execute plans (TransferBatch.logCalls fetch) (source, []) cancelled schedule t = .ok run ∧
      ∀ p, run.source.2.count p ≤ us.countP (·.relative = p) * (m.retry.maxRetries + 1) := by
  refine ⟨_, execute_of_units h (source, []) cancelled schedule t, fun p => ?_⟩
  dsimp only
  set b := m.runBatch (TransferBatch.logCalls fetch) us (source, []) cancelled schedule (m.createDirectories plans t).2
  have hl : b.Logged := runBatch_invariant TransferBatch.Logged (fun _ ev _ hl => TransferBatch.step_logged m hl ev)
    (source, []) cancelled schedule _ (by simp [TransferBatch.Logged, TransferBatch.callsFor])
  have hb := (runBatch_sound_done (m := m) (TransferBatch.logCalls fetch) us (source, []) cancelled schedule
    (m.createDirectories plans t).2).1
  obtain ⟨rest, happ, -⟩ := hb.started
  have hcount : b.tasks.countP (·.unit.relative = p) ≤ us.countP (·.relative = p) := by
    rw [← happ, List.countP_append, List.countP_map]
    exact Nat.le_add_right _ _
  calc b.source.2.count p
      = TransferBatch.callsFor b.tasks p := hl p
    _ ≤ b.tasks.countP (·.unit.relative = p) * (m.retry.maxRetries + 1) :=
        TransferBatch.callsFor_le (fun k hk => (hb.tasks k hk).fetches_le) p
    _ ≤ us.countP (·.relative = p) * (m.retry.maxRetries + 1) := Nat.mul_le_mul_right _ hcount

end TransferManager

end ModMirror
