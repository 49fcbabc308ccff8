import Mathlib
import ModMirror.Sync.Session

/-!
# Sessions keep to the phase graph

Every change of a session's phase is recorded in its history. A history is
lawful from a phase when each change is one legal step from the phase before
it, and the transfer is entered only while the sync lock is held and no
staging directory exists. The failure path is no exception: every step that
can fail after a session left idle runs in a phase from which the fatal error
is a legal step, so an abort walks through the fatal error and the report
back to idle by legal steps.

The proof is a small program logic for session steps. `Runs P m Q E` says
that `m`, run from a session satisfying `P`, ends in a session that follows
it by lawful changes, satisfying `Q a` when it returned `a` and `E e` when it
failed with `e`. Each step of a session gets one rule, and `check`, `apply`
and `decline` are assembled from the rules. A client's calls are then run one
after another (`afterCalls`), and by induction over the calls, from a new
session:

    every recorded change is lawful from idle
    the session is idle, or waits on the plan of a check with no apply since
    a call refused as an illegal step leaves the phase as it was
-/

namespace ModMirror

namespace SyncPhase

theorem canTransition_fetchingRemoteState (a : SyncPhase) :
    canTransition a fetchingRemoteState = true ↔ a = idle := by
  cases a <;> simp [canTransition]

theorem canTransition_transferring (a : SyncPhase) :
    canTransition a transferring = true ↔ a = awaitingConfirmation ∨ a = silentApply := by
  cases a <;> simp [canTransition]

theorem canTransition_idle (a : SyncPhase) :
    canTransition a idle = true ↔
      a = noChanges ∨ a = awaitingConfirmation ∨ a = commitAndMaybeRestart ∨ a = rollbackStaging ∨
        a = reportAndAbort := by
  cases a <;> simp [canTransition]

theorem canTransition_fatal_of_transferring {a : SyncPhase} (h : canTransition a transferring = true) :
    canTransition a fatalError = true := by
  rcases (canTransition_transferring a).mp h with rfl | rfl <;> rfl

end SyncPhase

/-! ## Lawful histories -/

/-- The phase that a history leaves a session in that started in `p`. -/
def phaseAfter (p : SyncPhase) (h : List PhaseChange) : SyncPhase := h.foldl (fun _ c => c.phase) p

@[simp] theorem phaseAfter_nil (p : SyncPhase) : phaseAfter p [] = p := rfl

@[simp] theorem phaseAfter_cons (p : SyncPhase) (c : PhaseChange) (h : List PhaseChange) :
    phaseAfter p (c :: h) = phaseAfter c.phase h := rfl

@[simp] theorem phaseAfter_append (p : SyncPhase) (h₁ h₂ : List PhaseChange) :
    phaseAfter p (h₁ ++ h₂) = phaseAfter (phaseAfter p h₁) h₂ :=
  List.foldl_append ..

/-- A change is allowed after phase `p` when it is one legal step from `p`
and, if it enters the transfer, the sync lock is held and no staging
directory exists. -/
def PhaseChange.Allowed (d : DataDir) (p : SyncPhase) (c : PhaseChange) : Prop :=
  p.canTransition c.phase = true ∧ (c.phase = .transferring → c.locked = true ∧ d.stagingExists c.tree = false)

/-- Every change of a history is allowed after the phase before it, from `p` on. -/
def Lawful (d : DataDir) : SyncPhase → List PhaseChange → Prop
  | _, [] => True
  | p, c :: h => c.Allowed d p ∧ Lawful d c.phase h

theorem lawful_append {d : DataDir} {p : SyncPhase} {h₁ h₂ : List PhaseChange} :
    Lawful d p (h₁ ++ h₂) ↔ Lawful d p h₁ ∧ Lawful d (phaseAfter p h₁) h₂ := by
  induction h₁ generalizing p with
  | nil => simp [Lawful]
  | cons c h ih => simp [Lawful, ih, and_assoc]

/-! ## Failures that are not refused steps

Only a transition raises `invalidTransition`. The failures of the lock, the
transfer, the commit and the clearing of the staging directory are failures
of the files or of the stored state. -/

namespace SyncError

/-- Whether a failure is a refused phase transition. -/
def isTransition : SyncError → Bool
  | invalidTransition _ _ => true
  | _ => false

end SyncError

section Failures

variable {ε ε' α β : Type}

theorem mapError_eq_error {f : ε → ε'} {x : Except ε α} {e : ε'} (h : x.mapError f = .error e) :
    ∃ e₀, e = f e₀ := by
  cases x with
  | error e₀ =>
    injection h with h
    exact ⟨e₀, h.symm⟩
  | ok a => cases h

theorem except_map_eq_error {f : α → β} {x : Except ε α} {e : ε} (h : x.map f = .error e) : x = .error e := by
  cases x with
  | error e₀ => simpa [Except.map] using h
  | ok a => cases h

theorem except_bind_eq_error {x : Except ε α} {f : α → Except ε β} {e : ε} (h : (x >>= f) = .error e) :
    x = .error e ∨ ∃ a, x = .ok a ∧ f a = .error e := by
  cases x with
  | error e₀ => exact .inl (by simpa [bind, Except.bind] using h)
  | ok a => exact .inr ⟨a, rfl, h⟩

theorem mapM_eq_error {f : α → Except ε β} {l : List α} {e : ε} (h : l.mapM f = .error e) :
    ∃ x ∈ l, f x = .error e := by
  induction l with
  | nil => cases h
  | cons x l ih =>
    rw [List.mapM_cons] at h
    rcases except_bind_eq_error h with hx | ⟨b, -, h⟩
    · exact ⟨x, List.mem_cons_self, hx⟩
    · rcases except_bind_eq_error h with hl | ⟨bs, -, h⟩
      · obtain ⟨y, hy, hfy⟩ := ih hl
        exact ⟨y, List.mem_cons_of_mem _ hy, hfy⟩
      · cases h

theorem flatMapM_eq_error {f : α → Except ε (List β)} {l : List α} {e : ε} (h : l.flatMapM f = .error e) :
    ∃ x ∈ l, f x = .error e := by
  induction l with
  | nil => cases h
  | cons x l ih =>
    rw [List.flatMapM_cons] at h
    rcases except_bind_eq_error h with hx | ⟨b, -, h⟩
    · exact ⟨x, List.mem_cons_self, hx⟩
    · rcases except_bind_eq_error h with hl | ⟨bs, -, h⟩
      · obtain ⟨y, hy, hfy⟩ := ih hl
        exact ⟨y, List.mem_cons_of_mem _ hy, hfy⟩
      · cases h

end Failures

theorem isTransition_malformed (e : FsError) : (malformed e).isTransition = false := by
  unfold malformed
  split <;> rfl

/-- Every failure of a step on the files satisfies `P`. -/
def FailsOnly {α : Type} (P : SyncError → Prop) (m : EStateM SyncError FileTree α) : Prop :=
  ∀ t e t', m t = .error e t' → P e

section FailsOnly

variable {α β : Type} {P : SyncError → Prop}

theorem FailsOnly.bind {m : EStateM SyncError FileTree α} {f : α → EStateM SyncError FileTree β}
    (hm : FailsOnly P m) (hf : ∀ a, FailsOnly P (f a)) : FailsOnly P (m >>= f) := by
  intro t e t' h
  change EStateM.bind m f t = _ at h
  unfold EStateM.bind at h
  revert h
  cases hmt : m t with
  | ok a t₁ => exact hf a t₁ e t'
  | error e₁ t₁ =>
    intro h
    injection h with he
    exact he ▸ hm t e₁ t₁ hmt

theorem failsOnly_pure (a : α) : FailsOnly P (pure a : EStateM SyncError FileTree α) := by
  intro t e t' h
  cases h

theorem failsOnly_reading {r : FileTree → Except SyncError α} (h : ∀ t e, r t = .error e → P e) :
    FailsOnly P (FileTree.reading r) := by
  intro t e t' hr
  unfold FileTree.reading at hr
  split at hr
  · cases hr
  · rename_i e₀ he₀
    injection hr with he
    exact he ▸ h t e₀ he₀

theorem failsOnly_changing {f : FileTree → Except SyncError FileTree} (h : ∀ t e, f t = .error e → P e) :
    FailsOnly P (FileTree.changing f) := by
  intro t e t' hf
  unfold FileTree.changing at hf
  split at hf
  · cases hf
  · rename_i e₀ he₀
    injection hf with he
    exact he ▸ h t e₀ he₀

end FailsOnly

namespace DataDir

variable (d : DataDir)

theorem readState_isTransition {α : Type} {c : Codec α} {t : FileTree} {p : NormalPath} {e : SyncError}
    (h : readState c t p = .error e) : e.isTransition = false := by
  obtain ⟨e₀, rfl⟩ := mapError_eq_error h
  exact isTransition_malformed e₀

theorem commit_isTransition (remote : CatalogSet) (removed : List String) :
    FailsOnly (fun e => e.isTransition = false) (d.commit remote removed) := by
  unfold commit
  have hsaved {α : Type} (c : Codec α) (p : NormalPath) (v : α) :
      ∀ t e, (c.save t p v).mapError SyncError.fs = .error e → e.isTransition = false := by
    intro t e h
    obtain ⟨e₀, rfl⟩ := mapError_eq_error h
    rfl
  refine (failsOnly_reading fun _ _ h => readState_isTransition (except_map_eq_error h)).bind fun _ => ?_
  refine (failsOnly_changing (hsaved _ _ _)).bind fun _ => ?_
  split
  · exact failsOnly_pure ()
  · refine (failsOnly_reading fun _ _ h => readState_isTransition (except_map_eq_error h)).bind fun _ => ?_
    exact failsOnly_changing (hsaved _ _ _)

theorem acquireLock_isTransition {t : FileTree} {e : SyncError} (h : d.acquireLock t = .error e) :
    e.isTransition = false := by
  rcases except_bind_eq_error h with h | ⟨_, -, h⟩
  · obtain ⟨e₀, rfl⟩ := mapError_eq_error h
    rfl
  · obtain ⟨e₀, rfl⟩ := mapError_eq_error h
    rfl

theorem clearStaging_isTransition {t : FileTree} {e : SyncError} (h : (d.clearStaging t).map Prod.snd = .error e) :
    e.isTransition = false := by
  obtain ⟨e₀, rfl⟩ := mapError_eq_error (except_map_eq_error h)
  rfl

end DataDir

theorem TransferManager.execute_isTransition {σ : Type} (m : TransferManager) {plans : PlanSet} {fetch : Fetch σ}
    {source : σ} {cancelled : Bool} {schedule : List TransferEvent} {t : FileTree} {e : SyncError}
    (h : m.execute plans fetch source cancelled schedule t = .error e) : e.isTransition = false := by
  unfold execute at h
  rcases except_bind_eq_error h with h | ⟨_, -, h⟩
  · -- only a destination that escapes its root fails, before anything runs
    obtain ⟨p, -, hp⟩ := flatMapM_eq_error h
    obtain ⟨rel, -, hrel⟩ := mapM_eq_error hp
    unfold unitOf at hrel
    rcases except_bind_eq_error hrel with hclean | ⟨_, -, hpure⟩
    · obtain ⟨e₀, rfl⟩ := mapError_eq_error hclean
      rfl
    · cases hpure
  · cases h

namespace SyncSession

variable {σ α β : Type}

@[simp] theorem entering_phase (s : SyncSession σ) (p : SyncPhase) : (s.entering p).phase = p := rfl
@[simp] theorem entering_root (s : SyncSession σ) (p : SyncPhase) : (s.entering p).root = s.root := rfl
@[simp] theorem entering_locked (s : SyncSession σ) (p : SyncPhase) : (s.entering p).locked = s.locked := rfl
@[simp] theorem entering_tree (s : SyncSession σ) (p : SyncPhase) : (s.entering p).tree = s.tree := rfl
@[simp] theorem entering_data (s : SyncSession σ) (p : SyncPhase) : (s.entering p).data = s.data := rfl

/-! ## Sessions that follow one another -/

/-- `s'` follows `s`: it has the same root, and its history is that of `s`
extended by changes allowed one after another from the phase of `s`, the
last of which gave `s'` its phase. -/
structure Follows (s s' : SyncSession σ) : Prop where
  root : s'.root = s.root
  history : ∃ h, s'.history = s.history ++ h ∧ Lawful s.data s.phase h ∧ s'.phase = phaseAfter s.phase h

theorem Follows.refl (s : SyncSession σ) : Follows s s :=
  ⟨rfl, [], by simp, trivial, rfl⟩

theorem Follows.trans {s₁ s₂ s₃ : SyncSession σ} (h₁₂ : Follows s₁ s₂) (h₂₃ : Follows s₂ s₃) :
    Follows s₁ s₃ := by
  obtain ⟨hroot₁, h, hist₁, hlaw₁, hphase₁⟩ := h₁₂
  obtain ⟨hroot₂, h', hist₂, hlaw₂, hphase₂⟩ := h₂₃
  have hdata : s₂.data = s₁.data := by simp only [data, hroot₁]
  refine ⟨hroot₂.trans hroot₁, h ++ h', by rw [hist₂, hist₁, List.append_assoc], ?_, ?_⟩
  · rw [hdata, hphase₁] at hlaw₂
    exact lawful_append.mpr ⟨hlaw₁, hlaw₂⟩
  · rw [hphase₂, hphase₁, phaseAfter_append]

theorem Follows.of_same {s s' : SyncSession σ} (hroot : s'.root = s.root) (hphase : s'.phase = s.phase)
    (hhist : s'.history = s.history) : Follows s s' :=
  ⟨hroot, [], by simp [hhist], trivial, by simp [hphase]⟩

theorem follows_entering {s : SyncSession σ} {p : SyncPhase}
    (h : (⟨p, s.locked, s.tree⟩ : PhaseChange).Allowed s.data s.phase) : Follows s (s.entering p) :=
  ⟨rfl, [⟨p, s.locked, s.tree⟩], rfl, ⟨h, trivial⟩, rfl⟩

theorem follows_step {s : SyncSession σ} {p : SyncPhase} (hp : p ≠ .transferring)
    (h : s.phase.canTransition p = true) : Follows s (s.entering p) :=
  follows_entering ⟨h, fun h' => absurd h' hp⟩

/-- The session at the end of the failure path: through the fatal error and
the report back to idle. -/
def aborted (s : SyncSession σ) : SyncSession σ :=
  ((s.entering .fatalError).entering .reportAndAbort).entering .idle

@[simp] theorem aborted_phase (s : SyncSession σ) : s.aborted.phase = .idle := rfl
@[simp] theorem aborted_root (s : SyncSession σ) : s.aborted.root = s.root := rfl
@[simp] theorem aborted_locked (s : SyncSession σ) : s.aborted.locked = s.locked := rfl

theorem follows_aborted {s : SyncSession σ} (h : s.phase.canTransition .fatalError = true) :
    Follows s s.aborted :=
  ((follows_step (by decide) h).trans (follows_step (by decide) rfl)).trans (follows_step (by decide) rfl)

theorem abort_eq (e : SyncError) {s : SyncSession σ} (h : s.phase.canTransition .fatalError = true) :
    (abort e : SessionM σ α) s = .error e s.aborted := by
  simp [abort, h, enter, bind, EStateM.bind, get, getThe, MonadStateOf.get, EStateM.get, modify, modifyGet,
    MonadStateOf.modifyGet, EStateM.modifyGet, throw, throwThe, MonadExceptOf.throw, EStateM.throw, aborted]

theorem transition_of_can {next : SyncPhase} {s : SyncSession σ} (hcan : s.phase.canTransition next = true) :
    transition next s = .ok () (s.entering next) := by
  simp [transition, hcan, enter, bind, EStateM.bind, get, getThe, MonadStateOf.get, EStateM.get, modify,
    modifyGet, MonadStateOf.modifyGet, EStateM.modifyGet]

theorem transition_of_cannot {next : SyncPhase} {s : SyncSession σ} (hcan : s.phase.canTransition next = false) :
    transition next s = .error (.invalidTransition s.phase next) s := by
  simp [transition, hcan, bind, EStateM.bind, get, getThe, MonadStateOf.get, EStateM.get, throw, throwThe,
    MonadExceptOf.throw, EStateM.throw]

theorem onTree_of_ok {f : FileTree → Except SyncError FileTree} {s : SyncSession σ} {t : FileTree}
    (hf : f s.tree = .ok t) : onTree f s = .ok () { s with tree := t } := by
  simp [onTree, hf, lift, bind, EStateM.bind, get, getThe, MonadStateOf.get, EStateM.get, pure, EStateM.pure,
    modify, modifyGet, MonadStateOf.modifyGet, EStateM.modifyGet]

theorem onTree_of_error {f : FileTree → Except SyncError FileTree} {s : SyncSession σ} {e : SyncError}
    (hf : f s.tree = .error e) : onTree f s = .error e s := by
  simp [onTree, hf, lift, bind, EStateM.bind, get, getThe, MonadStateOf.get, EStateM.get, throw, throwThe,
    MonadExceptOf.throw, EStateM.throw]

/-! ## A program logic for session steps -/

/-- How a step that started from `s` ended: in a session that follows `s`,
satisfying `Q a` if it returned `a` and `E e` if it failed with `e`. -/
def Ends (s : SyncSession σ) (Q : α → SyncSession σ → Prop) (E : SyncError → SyncSession σ → Prop) :
    EStateM.Result SyncError (SyncSession σ) α → Prop
  | .ok a s' => Follows s s' ∧ Q a s'
  | .error e s' => Follows s s' ∧ E e s'

/-- Run from any session satisfying `P`, the step ends as `Q` and `E` say.
A structure, so that no elaboration unfolds it into the step's computation. -/
structure Runs (P : SyncSession σ → Prop) (m : SessionM σ α) (Q : α → SyncSession σ → Prop)
    (E : SyncError → SyncSession σ → Prop) : Prop where
  ends : ∀ s, P s → Ends s Q E (m s)

section Rules

variable {P P' : SyncSession σ → Prop} {Q Q' : α → SyncSession σ → Prop} {R : β → SyncSession σ → Prop}
  {E F : SyncError → SyncSession σ → Prop}

theorem Ends.of_follows {s s₁ : SyncSession σ} {r : EStateM.Result SyncError (SyncSession σ) α}
    (h : Follows s s₁) (he : Ends s₁ Q E r) : Ends s Q E r := by
  cases r with
  | ok a s' => exact ⟨h.trans he.1, he.2⟩
  | error e s' => exact ⟨h.trans he.1, he.2⟩

theorem Runs.mono {m : SessionM σ α} (h : Runs P m Q E) (hP : ∀ s, P' s → P s) (hQ : ∀ a s, Q a s → Q' a s)
    (hE : ∀ e s, E e s → F e s) : Runs P' m Q' F := by
  refine ⟨fun s hs => ?_⟩
  have hend := h.ends s (hP s hs)
  revert hend
  cases m s with
  | ok a s' => exact fun ⟨hf, hq⟩ => ⟨hf, hQ a s' hq⟩
  | error e s' => exact fun ⟨hf, he⟩ => ⟨hf, hE e s' he⟩

theorem Runs.pre {m : SessionM σ α} (h : Runs P m Q E) (hP : ∀ s, P' s → P s) : Runs P' m Q E :=
  h.mono hP (fun _ _ h => h) (fun _ _ h => h)

theorem Runs.bind {m : SessionM σ α} {f : α → SessionM σ β} (hm : Runs P m Q E) (hf : ∀ a, Runs (Q a) (f a) R E) :
    Runs P (m >>= f) R E := by
  refine ⟨fun s hs => ?_⟩
  have hend := hm.ends s hs
  show Ends s R E (EStateM.bind m f s)
  unfold EStateM.bind
  revert hend
  cases m s with
  | ok a s₁ => exact fun ⟨hfol, hq⟩ => ((hf a).ends s₁ hq).of_follows hfol
  | error e s₁ => exact id

theorem Runs.tryCatch {m : SessionM σ α} {handler : SyncError → SessionM σ α} (hm : Runs P m Q F)
    (hh : ∀ e, Runs (F e) (handler e) Q E) : Runs P (tryCatch m handler) Q E := by
  refine ⟨fun s hs => ?_⟩
  have hend := hm.ends s hs
  simp only [MonadExcept.tryCatch, tryCatchThe, MonadExceptOf.tryCatch, EStateM.tryCatch]
  revert hend
  cases m s with
  | ok a s₁ => exact id
  | error e s₁ => exact fun h => ((hh e).ends s₁ h.2).of_follows h.1

theorem Runs.of_false {m : SessionM σ α} : Runs (fun _ => False) m Q E :=
  ⟨fun _ h => h.elim⟩

theorem runs_pure (a : α) : Runs (Q a) (pure a : SessionM σ α) Q E :=
  ⟨fun s hs => ⟨Follows.refl s, hs⟩⟩

theorem runs_get {Q : SyncSession σ → SyncSession σ → Prop} :
    Runs (fun s => Q s s) (get : SessionM σ (SyncSession σ)) Q E :=
  ⟨fun s hs => ⟨Follows.refl s, hs⟩⟩

theorem runs_throw (e : SyncError) : Runs (E e) (throw e : SessionM σ α) Q E :=
  ⟨fun s hs => ⟨Follows.refl s, hs⟩⟩

theorem runs_modify {f : SyncSession σ → SyncSession σ} {Q : Unit → SyncSession σ → Prop} :
    Runs (fun s => Follows s (f s) ∧ Q () (f s)) (modify f) Q E :=
  ⟨fun _ hs => hs⟩

theorem runs_set {s' : SyncSession σ} {Q : Unit → SyncSession σ → Prop} :
    Runs (fun s => Follows s s' ∧ Q () s') (set s' : SessionM σ Unit) Q E :=
  ⟨fun _ hs => hs⟩

theorem runs_transition (next : SyncPhase) {Q : Unit → SyncSession σ → Prop} :
    Runs (fun s => (s.phase.canTransition next = true →
        (next = .transferring → s.locked = true ∧ s.data.stagingExists s.tree = false) ∧ Q () (s.entering next)) ∧
      (s.phase.canTransition next = false → E (.invalidTransition s.phase next) s)) (transition next) Q E := by
  refine ⟨fun s ⟨hyes, hno⟩ => ?_⟩
  cases hcan : s.phase.canTransition next with
  | true =>
    obtain ⟨htransfer, hq⟩ := hyes hcan
    rw [transition_of_can hcan]
    exact ⟨follows_entering ⟨hcan, htransfer⟩, hq⟩
  | false =>
    rw [transition_of_cannot hcan]
    exact ⟨Follows.refl s, hno hcan⟩

theorem runs_step {next : SyncPhase} (hnext : next ≠ .transferring) {Q : Unit → SyncSession σ → Prop} :
    Runs (fun s => s.phase.canTransition next = true ∧ Q () (s.entering next)) (transition next) Q E :=
  (runs_transition next).pre (fun _ ⟨hcan, hq⟩ => ⟨fun _ => ⟨fun h => absurd h hnext, hq⟩,
    fun hno => absurd (hcan.symm.trans hno) Bool.noConfusion⟩)

theorem runs_abort (e : SyncError) :
    Runs (fun s => s.phase.canTransition .fatalError = true ∧ E e s.aborted) (abort e : SessionM σ α) Q E := by
  refine ⟨fun s ⟨hfatal, he⟩ => ?_⟩
  rw [abort_eq e hfatal]
  exact ⟨follows_aborted hfatal, he⟩

/-- A step run under `orAbort` fails only through the failure path, which
must start in a phase that may fail. -/
theorem Runs.orAbort {m : SessionM σ α} (hm : Runs P m Q F)
    (he : ∀ e s, F e s → s.phase.canTransition .fatalError = true ∧ E e s.aborted) :
    Runs P (orAbort m) Q E :=
  hm.tryCatch fun e => (runs_abort e).pre (fun s h => he e s h)

theorem runs_onTree (f : FileTree → Except SyncError FileTree) {Q : Unit → SyncSession σ → Prop} :
    Runs (fun s => (∀ t, f s.tree = .ok t → Q () { s with tree := t }) ∧ ∀ e, f s.tree = .error e → E e s)
      (onTree f) Q E := by
  refine ⟨fun s ⟨hok, herr⟩ => ?_⟩
  cases hf : f s.tree with
  | ok t =>
    rw [onTree_of_ok hf]
    exact ⟨Follows.of_same rfl rfl rfl, hok t hf⟩
  | error e =>
    rw [onTree_of_error hf]
    exact ⟨Follows.refl s, herr e hf⟩

theorem runs_onFiles (m : EStateM SyncError FileTree α) :
    Runs (fun s => (∀ a t, m s.tree = .ok a t → Q a { s with tree := t }) ∧
      ∀ e t, m s.tree = .error e t → E e { s with tree := t }) (onFiles m) Q E := by
  refine ⟨fun s hs => ?_⟩
  show Ends s Q E (onFiles m s)
  unfold onFiles
  cases hm : m s.tree with
  | ok a t => exact ⟨Follows.of_same rfl rfl rfl, hs.1 a t hm⟩
  | error e t => exact ⟨Follows.of_same rfl rfl rfl, hs.2 e t hm⟩

end Rules

/-! ## Steps that leave the phase alone -/

/-- What the phase discipline watches in a session: its root, phase, lock and history. -/
def control (s : SyncSession σ) : NormalPath × SyncPhase × Bool × List PhaseChange :=
  (s.root, s.phase, s.locked, s.history)

/-- The session a step ended in, whether it returned or failed. -/
def final : EStateM.Result SyncError (SyncSession σ) α → SyncSession σ
  | .ok _ s => s
  | .error _ s => s

/-- A step that keeps the control of the session, whether it returns or fails. -/
structure Quiet (m : SessionM σ α) : Prop where
  keeps : ∀ s, (final (m s)).control = s.control

theorem Follows.of_control {s s' : SyncSession σ} (h : s'.control = s.control) : Follows s s' := by
  simp only [control, Prod.mk.injEq] at h
  exact Follows.of_same h.1 h.2.1 h.2.2.2

theorem runs_quiet {m : SessionM σ α} {Q : α → SyncSession σ → Prop} {E : SyncError → SyncSession σ → Prop}
    (hm : Quiet m) : Runs (fun s => ∀ s', s'.control = s.control → (∀ a, Q a s') ∧ ∀ e, E e s') m Q E := by
  refine ⟨fun s hs => ?_⟩
  have hc := hm.keeps s
  revert hc
  cases m s with
  | ok a s' => exact fun hc => ⟨Follows.of_control hc, (hs s' hc).1 a⟩
  | error e s' => exact fun hc => ⟨Follows.of_control hc, (hs s' hc).2 e⟩

theorem Quiet.bind {m : SessionM σ α} {f : α → SessionM σ β} (hm : Quiet m) (hf : ∀ a, Quiet (f a)) :
    Quiet (m >>= f) := by
  refine ⟨fun s => ?_⟩
  show (final (EStateM.bind m f s)).control = _
  unfold EStateM.bind
  have hc := hm.keeps s
  revert hc
  cases m s with
  | ok a s₁ => exact fun hc => ((hf a).keeps s₁).trans hc
  | error e s₁ => exact id

theorem quiet_pure (a : α) : Quiet (pure a : SessionM σ α) := ⟨fun _ => rfl⟩

theorem quiet_get : Quiet (get : SessionM σ (SyncSession σ)) := ⟨fun _ => rfl⟩

theorem quiet_modify {f : SyncSession σ → SyncSession σ} (hf : ∀ s, (f s).control = s.control) :
    Quiet (modify f) := ⟨hf⟩

theorem quiet_lift (r : Except SyncError α) : Quiet (lift r : SessionM σ α) := by
  refine ⟨fun s => ?_⟩
  cases r <;> rfl

theorem quiet_call (f : σ → Except SyncError α × σ) : Quiet (call f) := by
  unfold call
  refine quiet_get.bind fun s => ?_
  obtain ⟨r, remote⟩ := f s.remote
  dsimp only
  exact (quiet_modify fun _ => by rfl).bind fun _ => quiet_lift r

theorem quiet_forM {l : List β} {f : β → SessionM σ Unit} (hf : ∀ x, Quiet (f x)) : Quiet (l.forM f) := by
  induction l with
  | nil => exact quiet_pure ()
  | cons x l ih => exact (hf x).bind fun _ => ih

theorem quiet_onTree (f : FileTree → Except SyncError FileTree) : Quiet (onTree f : SessionM σ Unit) :=
  quiet_get.bind fun _ => (quiet_lift _).bind fun _ => quiet_modify fun _ => by rfl

theorem quiet_onFiles (m : EStateM SyncError FileTree α) : Quiet (onFiles m : SessionM σ α) := by
  refine ⟨fun s => ?_⟩
  show (final (onFiles m s)).control = _
  unfold onFiles
  cases m s.tree <;> rfl

theorem quiet_fetchRemoteState (r : Remote σ) : Quiet (fetchRemoteState r) := by
  unfold fetchRemoteState
  refine (quiet_call _).bind fun _ => (quiet_call _).bind fun _ => ?_
  refine (quiet_forM fun _ => (quiet_lift _).bind fun _ => quiet_pure _).bind fun _ => ?_
  refine (quiet_call _).bind fun _ => (quiet_lift _).bind fun _ => quiet_get.bind fun _ => ?_
  exact (quiet_call _).bind fun _ => quiet_pure _

theorem quiet_diff (fetched : RemoteState) : Quiet (diff fetched : SessionM σ PlanSet) := by
  unfold diff
  refine quiet_get.bind fun _ => (quiet_lift _).bind fun _ => (quiet_lift _).bind fun loaded => ?_
  obtain ⟨_, t⟩ := loaded
  dsimp only
  refine (quiet_modify fun _ => by rfl).bind fun _ => (quiet_lift _).bind fun _ => (quiet_lift _).bind fun _ => ?_
  exact (quiet_onTree _).bind fun _ => quiet_pure _

theorem phase_eq_of_control {s s' : SyncSession σ} (h : s'.control = s.control) : s'.phase = s.phase :=
  congrArg (fun c => c.2.1) h

/-- A quiet step run under `orAbort` in a phase that may fail: it stays in
that phase, or walks the failure path back to idle. -/
theorem runs_orAbort_quiet (p : SyncPhase) (hp : p.canTransition .fatalError = true) {m : SessionM σ α}
    (hm : Quiet m) :
    Runs (fun s => s.phase = p) (orAbort m) (fun _ s => s.phase = p) (fun _ s => s.phase = .idle) := by
  refine Runs.orAbort (F := fun _ s => s.phase = p) ((runs_quiet hm).pre ?_) ?_
  · intro s hs s' hc
    have hphase : s'.phase = p := (phase_eq_of_control hc).trans hs
    exact ⟨fun _ => hphase, fun _ => hphase⟩
  · intro e s hs
    exact ⟨hs ▸ hp, rfl⟩

theorem runs_step_from {p next : SyncPhase} {E : SyncError → SyncSession σ → Prop} (hnext : next ≠ .transferring)
    (hcan : p.canTransition next = true) :
    Runs (fun s => s.phase = p) (transition next) (fun _ s => s.phase = next) E :=
  (runs_step hnext).pre (fun _ hs => ⟨hs ▸ hcan, rfl⟩)

theorem runs_modify_quiet {f : SyncSession σ → SyncSession σ} {p : SyncPhase} {E : SyncError → SyncSession σ → Prop}
    (hf : ∀ s, (f s).control = s.control) : Runs (fun s => s.phase = p) (modify f) (fun _ s => s.phase = p) E :=
  runs_modify.pre (fun s hs => ⟨Follows.of_control (hf s), (phase_eq_of_control (hf s)).trans hs⟩)

theorem runs_get_phase {p : SyncPhase} {E : SyncError → SyncSession σ → Prop} :
    Runs (fun s => s.phase = p) (get : SessionM σ (SyncSession σ)) (fun _ s => s.phase = p) E :=
  runs_get (Q := fun _ s => s.phase = p)

/-! ## The calls of a session -/

/-- A check from idle ends idle when it fails or finds nothing to do, and
otherwise waits on its plan. -/
theorem runs_check (r : Remote σ) :
    Runs (fun s => s.phase = .idle) (check r)
      (fun c s => if c.plans.isEmpty then s.phase = .idle else s.phase = .awaitingConfirmation ∨ s.phase = .silentApply)
      (fun _ s => s.phase = .idle) := by
  unfold check
  refine (runs_step_from (by decide) (by decide)).bind fun _ => ?_
  refine (runs_modify_quiet fun _ => by rfl).bind fun _ => ?_
  refine (runs_orAbort_quiet .fetchingRemoteState rfl (quiet_fetchRemoteState r)).bind fun fetched => ?_
  refine (runs_step_from (by decide) (by decide)).bind fun _ => ?_
  refine (runs_orAbort_quiet .diffing rfl (quiet_diff fetched)).bind fun plans => ?_
  dsimp only
  split
  · -- nothing to do: the remote catalogs are committed and the session is idle again
    rename_i hempty
    refine (runs_step_from (by decide) (by decide)).bind fun _ => ?_
    refine runs_get_phase.bind fun _ => ?_
    refine (runs_orAbort_quiet .noChanges rfl (quiet_onFiles _)).bind fun _ => ?_
    refine (runs_step_from (by decide) (by decide)).bind fun _ => ?_
    exact (runs_pure _).pre (fun s hs => by simp [hempty, hs])
  · rename_i hempty
    refine (runs_step_from (by decide) (by decide)).bind fun _ => ?_
    refine runs_get_phase.bind fun _ => ?_
    refine Runs.bind (Q := fun _ s => s.phase = .awaitingConfirmation ∨ s.phase = .silentApply) ?_ fun _ => ?_
    · split
      · exact (runs_step_from (by decide) (by decide)).mono (fun _ h => h) (fun _ _ h => .inr h) (fun _ _ h => h)
      · exact (runs_step_from (by decide) (by decide)).mono (fun _ h => h) (fun _ _ h => .inl h) (fun _ _ h => h)
    · exact (runs_pure _).pre (fun s hs => by simpa [hempty] using hs)

/-- How a step fails once the session has left idle: back in idle through
the failure path, and not as a refused step. -/
def Aborted (e : SyncError) (s : SyncSession σ) : Prop := s.phase = .idle ∧ e.isTransition = false

theorem data_eq_of_root {s s' : SyncSession σ} (h : s'.root = s.root) : s'.data = s.data :=
  congrArg DataDir.forRoot h

theorem runs_enterTransfer :
    Runs (fun s => s.phase.canTransition .transferring = true) (enterTransfer : SessionM σ Unit)
      (fun _ s => s.phase = .transferring) Aborted := by
  unfold enterTransfer
  have hget : Runs (fun s => s.phase.canTransition .transferring = true) (get : SessionM σ (SyncSession σ))
      (fun s₀ s => s₀ = s ∧ s.phase.canTransition .transferring = true) Aborted :=
    (runs_get (Q := fun s₀ s => s₀ = s ∧ s.phase.canTransition .transferring = true)).pre
      (fun _ h => ⟨rfl, h⟩)
  refine hget.bind fun s₀ => ?_
  dsimp only
  split
  · rename_i hcan
    -- every failure inside happens in the phase the call started in, which may fail
    refine Runs.orAbort (F := fun e s => s.phase = s₀.phase ∧ e.isTransition = false) ?_
      fun e s ⟨hphase, he⟩ => ⟨hphase ▸ SyncPhase.canTransition_fatal_of_transferring hcan, rfl, he⟩
    refine Runs.bind (Q := fun _ s => s.phase = s₀.phase ∧ s.data = s₀.data) ?_ fun _ => ?_
    · refine (runs_onTree _).pre ?_
      rintro s ⟨rfl, -⟩
      exact ⟨fun _ _ => ⟨rfl, rfl⟩, fun e he => ⟨rfl, s₀.data.acquireLock_isTransition he⟩⟩
    refine Runs.bind (Q := fun _ s => (s.phase = s₀.phase ∧ s.data = s₀.data) ∧ s.locked = true) ?_ fun _ => ?_
    · exact runs_modify.pre (fun _ h => ⟨Follows.of_same rfl rfl rfl, h, rfl⟩)
    refine Runs.bind (runs_get (Q := fun a s => a = s ∧ (s.phase = s₀.phase ∧ s.data = s₀.data) ∧ s.locked = true)
      |>.pre (fun _ h => ⟨rfl, h⟩)) fun s₁ => ?_
    split
    · -- staged files of an earlier sync are pending: the lock is let go and the call fails
      refine Runs.bind (Q := fun _ s => s.phase = s₀.phase) ?_ fun _ => ?_
      · exact runs_modify.pre (fun _ ⟨_, ⟨hphase, _⟩, _⟩ => ⟨Follows.of_same rfl rfl rfl, hphase⟩)
      exact ((runs_throw _).bind (Q := fun _ _ => False) fun _ => Runs.of_false).pre
        (fun _ h => ⟨h, rfl⟩)
    · rename_i hstaging
      refine (runs_transition _).pre ?_
      rintro s ⟨rfl, ⟨hphase, hdata⟩, hlocked⟩
      refine ⟨fun _ => ⟨fun _ => ⟨hlocked, ?_⟩, rfl⟩, fun hno => absurd (hphase ▸ hcan) (by simp [hno])⟩
      rw [hdata]
      simpa using hstaging
  · rename_i hcan
    exact Runs.of_false.pre (fun s ⟨hs, hyes⟩ => absurd (hs ▸ hyes) hcan)

/-- A change of the files under `orAbort`, in a phase that may fail, by a
function whose failures are not refused steps. -/
theorem runs_orAbort_onTree (p : SyncPhase) (hp : p.canTransition .fatalError = true)
    {f : FileTree → Except SyncError FileTree} (hf : ∀ t e, f t = .error e → e.isTransition = false) :
    Runs (fun s => s.phase = p) (orAbort (onTree f) : SessionM σ Unit) (fun _ s => s.phase = p) Aborted :=
  Runs.orAbort (F := fun e s => s.phase = p ∧ e.isTransition = false)
    ((runs_onTree f).mono (fun _ hs => ⟨fun _ _ => hs, fun e he => ⟨hs, hf _ e he⟩⟩) (fun _ _ h => h)
      (fun _ _ h => h))
    fun _ _ ⟨hphase, he⟩ => ⟨hphase ▸ hp, rfl, he⟩

/-- A step on the files under `orAbort`, in a phase that may fail, whose
failures are not refused steps. -/
theorem runs_orAbort_onFiles (p : SyncPhase) (hp : p.canTransition .fatalError = true)
    {m : EStateM SyncError FileTree α} (hm : FailsOnly (fun e => e.isTransition = false) m) :
    Runs (fun s => s.phase = p) (orAbort (onFiles m) : SessionM σ α) (fun _ s => s.phase = p) Aborted :=
  Runs.orAbort (F := fun e s => s.phase = p ∧ e.isTransition = false)
    ((runs_onFiles m).mono (fun _ hs => ⟨fun _ _ _ => hs, fun e _ he => ⟨hs, hm _ e _ he⟩⟩) (fun _ _ h => h)
      (fun _ _ h => h))
    fun _ _ ⟨hphase, he⟩ => ⟨hphase ▸ hp, rfl, he⟩

theorem clearStaging_map_isTransition (d : DataDir) :
    ∀ t e, (fun t => (d.clearStaging t).map Prod.snd) t = .error e → e.isTransition = false :=
  fun _ _ h => d.clearStaging_isTransition h

theorem runs_finish (plans : PlanSet) (report : TransferReport) :
    Runs (fun s => s.phase = .transferring) (finish plans report : SessionM σ SyncOutcome)
      (fun _ s => s.phase = .idle) Aborted := by
  unfold finish
  refine (runs_step_from (by decide) (by decide)).bind fun _ => ?_
  refine (runs_step_from (by decide) (by decide)).bind fun _ => ?_
  refine runs_get_phase.bind fun s₀ => ?_
  refine (runs_orAbort_onFiles .commitAndMaybeRestart rfl (s₀.data.commit_isTransition _ _)).bind fun _ => ?_
  dsimp only
  split
  · -- the staged files and the removals wait for the updater
    refine (runs_step_from (by decide) (by decide)).bind fun _ => ?_
    exact runs_pure (Q := fun _ s => s.phase = .idle) _
  · refine (runs_orAbort_onTree .commitAndMaybeRestart rfl (clearStaging_map_isTransition _)).bind fun _ => ?_
    refine (runs_step_from (by decide) (by decide)).bind fun _ => ?_
    exact runs_pure (Q := fun _ s => s.phase = .idle) _

theorem runs_rollBack (completed inPlace : Nat) (failures : List TransferFailure) :
    Runs (fun s => s.phase = .transferring) (rollBack completed inPlace failures : SessionM σ SyncOutcome)
      (fun _ s => s.phase = .idle) Aborted := by
  unfold rollBack
  refine (runs_step_from (by decide) (by decide)).bind fun _ => ?_
  refine (runs_step_from (by decide) (by decide)).bind fun _ => ?_
  refine runs_get_phase.bind fun s₀ => ?_
  refine (runs_orAbort_onTree .rollbackStaging rfl (clearStaging_map_isTransition _)).bind fun _ => ?_
  refine (runs_step_from (by decide) (by decide)).bind fun _ => ?_
  exact runs_pure (Q := fun _ s => s.phase = .idle) _

/-- A transfer ends idle, committed, rolled back or aborted. -/
theorem runs_transfer (r : Remote σ) (plans : PlanSet) :
    Runs (fun s => s.phase = .transferring) (transfer r plans) (fun _ s => s.phase = .idle) Aborted := by
  unfold transfer
  refine Runs.bind (runs_get (Q := fun a s => a = s ∧ s.phase = .transferring) |>.pre (fun _ h => ⟨rfl, h⟩)) fun s₀ => ?_
  refine Runs.bind (Q := fun _ s => s.phase = .transferring) ?_ fun _ => ?_
  · exact runs_set.mono (fun _ ⟨hs, hphase⟩ => ⟨hs ▸ Follows.of_same rfl rfl rfl, hs ▸ hphase⟩) (fun _ _ h => h)
      (fun _ _ h => h)
  split
  · rename_i e he
    exact (runs_abort e).pre (fun _ hphase => ⟨hphase ▸ rfl, rfl, TransferManager.execute_isTransition _ he⟩)
  · rename_i run _
    refine (runs_modify_quiet fun _ => by rfl).bind fun _ => ?_
    split
    · exact runs_finish plans _
    · exact runs_rollBack _ _ _

/-- An apply from a phase that may start a transfer ends idle: the transfer
was committed or rolled back, or the session was aborted. -/
theorem runs_apply (r : Remote σ) (plans : PlanSet) :
    Runs (fun s => s.phase.canTransition .transferring = true) (apply r plans) (fun _ s => s.phase = .idle)
      Aborted := by
  unfold apply releaseLock
  refine runs_enterTransfer.bind fun _ => ?_
  refine Runs.bind (Q := fun _ s => s.phase = .idle) ((runs_transfer r plans).tryCatch fun e => ?_) fun _ => ?_
  · -- a failed transfer lets go of the lock and passes the failure on
    refine Runs.bind (Q := fun _ s => Aborted e s) ?_ fun _ => runs_throw (E := Aborted) e
    exact runs_modify.pre (fun _ h => ⟨Follows.of_same rfl rfl rfl, h⟩)
  · refine Runs.bind (Q := fun _ s => s.phase = .idle) ?_ fun _ => runs_pure (Q := fun _ s => s.phase = .idle) _
    exact runs_modify.pre (fun _ h => ⟨Follows.of_same rfl rfl rfl, h⟩)

/-- An apply in a phase that may not start a transfer is refused, and
changes nothing. -/
theorem runs_apply_refused (r : Remote σ) (plans : PlanSet) {p : SyncPhase}
    (hp : p.canTransition .transferring = false) :
    Runs (fun s => s.phase = p) (apply r plans) (fun _ _ => False)
      (fun e s => s.phase = p ∧ e = .invalidTransition p .transferring) := by
  unfold apply enterTransfer
  refine Runs.bind (Q := fun _ _ => False) ?_ fun _ => Runs.of_false
  refine Runs.bind (runs_get (Q := fun a s => a = s ∧ s.phase = p) |>.pre (fun _ h => ⟨rfl, h⟩)) fun s₀ => ?_
  dsimp only
  split
  · rename_i hcan
    exact Runs.of_false.pre (fun _ ⟨hs, hphase⟩ => absurd hcan (by rw [hs, hphase, hp]; decide))
  · exact ((runs_throw _).bind (Q := fun _ _ => False) fun _ => Runs.of_false).pre
      (fun s ⟨hs, hphase⟩ => ⟨hphase, by rw [hs, hphase]⟩)

theorem runs_check_refused (r : Remote σ) {p : SyncPhase} (hp : p ≠ .idle) :
    Runs (fun s => s.phase = p) (check r) (fun _ _ => False)
      (fun e s => s.phase = p ∧ e = .invalidTransition p .fetchingRemoteState) := by
  unfold check
  refine Runs.bind (Q := fun _ _ => False) ?_ fun _ => Runs.of_false
  refine (runs_transition _).mono (fun s hs => ⟨fun hcan => ?_, fun _ => ⟨hs, hs ▸ rfl⟩⟩) (fun _ _ h => h)
    (fun _ _ h => h)
  exact absurd ((SyncPhase.canTransition_fetchingRemoteState _).mp hcan) (hs ▸ hp)

theorem Ends.final_of {s : SyncSession σ} {Q : α → SyncSession σ → Prop} {E : SyncError → SyncSession σ → Prop}
    {r : EStateM.Result SyncError (SyncSession σ) α} {X : SyncSession σ → Prop} (h : Ends s Q E r)
    (hQ : ∀ a s', Q a s' → X s') (hE : ∀ e s', E e s' → X s') : Follows s (final r) ∧ X (final r) := by
  cases r with
  | ok a s' => exact ⟨h.1, hQ a s' h.2⟩
  | error e s' => exact ⟨h.1, hE e s' h.2⟩

theorem Ends.of_error {s s' : SyncSession σ} {Q : α → SyncSession σ → Prop} {E : SyncError → SyncSession σ → Prop}
    {r : EStateM.Result SyncError (SyncSession σ) α} {e : SyncError} (h : Ends s Q E r) (hr : r = .error e s') :
    E e s' := by
  subst hr
  exact h.2

theorem final_bind_pure (m : SessionM σ α) (b : β) (s : SyncSession σ) :
    final ((m >>= fun _ => pure b) s) = final (m s) := by
  show final (EStateM.bind m _ s) = _
  unfold EStateM.bind
  cases m s <;> rfl

theorem bind_pure_eq_error {m : SessionM σ α} {b : β} {s s' : SyncSession σ} {e : SyncError}
    (h : (m >>= fun _ => pure b) s = .error e s') : m s = .error e s' := by
  change EStateM.bind m _ s = _ at h
  unfold EStateM.bind at h
  revert h
  cases m s with
  | ok a s₁ => exact fun h => nomatch h
  | error e₁ s₁ =>
    intro h
    injection h with he hs
    rw [he, hs]

end SyncSession

namespace SyncPhase

/-- The phases a session rests in between calls: idle, or waiting on a plan. -/
def Resting (p : SyncPhase) : Prop := p = idle ∨ p = awaitingConfirmation ∨ p = silentApply

theorem Resting.eq_idle {p : SyncPhase} (h : p.Resting) (hp : p.canTransition transferring = false) : p = idle := by
  rcases h with h | h | h
  · exact h
  · subst h
    cases hp
  · subst h
    cases hp

end SyncPhase

/-! ## A client's calls -/

/-- A call a client makes on a session. -/
inductive SessionCall where
  | check
  | apply (plans : PlanSet)
  | decline (plans : PlanSet)
  | cancel

namespace SessionCall

variable {σ : Type}

/-- Whether a call never applies anything: a check, a cancel, or a decline of
a plan without enforced changes. -/
def appliesNothing : SessionCall → Bool
  | check | cancel => true
  | apply _ => false
  | decline plans => plans.enforcedOnly.isEmpty

/-- Makes a call on a session, setting aside what it returns. -/
def run (r : Remote σ) : SessionCall → SessionM σ Unit
  | check => SyncSession.check r >>= fun _ => pure ()
  | apply plans => SyncSession.apply r plans >>= fun _ => pure ()
  | decline plans => SyncSession.decline r plans >>= fun _ => pure ()
  | cancel => SyncSession.cancel

end SessionCall

namespace SyncSession

variable {σ : Type}

/-- A session just set up: idle, unlocked, with nothing recorded. -/
def fresh (root : NormalPath) (settings : ClientSettings) (tree : FileTree) (remote : σ) : SyncSession σ :=
  { root, settings, tree, remote }

/-- The session after a call, whether the call returned or failed. -/
def afterCall (r : Remote σ) (c : SessionCall) (s : SyncSession σ) : SyncSession σ := final (c.run r s)

/-- The session after the calls, each made on the session the one before left. -/
def afterCalls (r : Remote σ) (calls : List SessionCall) (s : SyncSession σ) : SyncSession σ :=
  calls.foldl (fun s c => afterCall r c s) s

theorem afterCalls_cons (r : Remote σ) (c : SessionCall) (calls : List SessionCall) (s : SyncSession σ) :
    afterCalls r (c :: calls) s = afterCalls r calls (afterCall r c s) := rfl

theorem runs_setAside (s : SyncSession σ) :
    Runs (fun s' => s' = s) (transition .idle >>= fun _ => pure .declined : SessionM σ SyncOutcome)
      (fun _ s' => s'.phase = .idle) (fun _ s' => s'.phase = s.phase) :=
  ((runs_transition .idle).bind fun _ => runs_pure (Q := fun _ s' => s'.phase = .idle) _).pre
    (fun _ hs' => ⟨fun _ => ⟨nofun, rfl⟩, fun _ => hs' ▸ rfl⟩)

/-- From a resting session, an apply ends idle. -/
theorem afterApply_idle (r : Remote σ) (plans : PlanSet) {s : SyncSession σ} (hs : s.phase.Resting) :
    Follows s (final (apply r plans s)) ∧ (final (apply r plans s)).phase = .idle := by
  cases hcan : s.phase.canTransition .transferring with
  | true => exact ((runs_apply r plans).ends s hcan).final_of (fun _ _ h => h) (fun _ _ h => h.1)
  | false =>
    have hidle := hs.eq_idle hcan
    exact ((runs_apply_refused r plans hcan).ends s rfl).final_of (fun _ _ h => h.elim)
      (fun _ _ h => h.1.trans hidle)

/-- From a resting session, a check rests again: idle, waiting on the plans it
returned, or, refused, in the phase it was in. -/
theorem afterCheck_rests (r : Remote σ) {s : SyncSession σ} (hs : s.phase.Resting) :
    Follows s (final (check r s)) ∧ (final (check r s)).phase.Resting ∧
      ((final (check r s)).phase = .idle ∨
        (∃ chk, check r s = .ok chk (final (check r s)) ∧ chk.plans.isEmpty = false) ∨
        (final (check r s)).phase = s.phase) := by
  by_cases hidle : s.phase = .idle
  · have hend := (runs_check r).ends s hidle
    revert hend
    cases check r s with
    | ok chk s' =>
      rintro ⟨hf, hpost⟩
      cases hempty : chk.plans.isEmpty
      · rw [hempty] at hpost
        exact ⟨hf, .inr hpost, .inr (.inl ⟨chk, rfl, hempty⟩)⟩
      · rw [hempty] at hpost
        exact ⟨hf, .inl hpost, .inl hpost⟩
    | error e s' =>
      rintro ⟨hf, hpost⟩
      exact ⟨hf, .inl hpost, .inl hpost⟩
  · obtain ⟨hf, hphase⟩ := ((runs_check_refused r hidle).ends s rfl).final_of
      (X := fun s' => s'.phase = s.phase) (fun _ _ h => h.elim) (fun _ _ h => h.1)
    exact ⟨hf, hphase ▸ hs, .inr (.inr hphase)⟩

/-- What one call does to a resting session: it follows by lawful changes and
rests again, either idle, or waiting on the plan this very call, a check,
returned, or in the phase it was in after a call that applies nothing. -/
theorem afterCall_rests (r : Remote σ) (c : SessionCall) {s : SyncSession σ} (hs : s.phase.Resting) :
    Follows s (afterCall r c s) ∧ (afterCall r c s).phase.Resting ∧
      ((afterCall r c s).phase = .idle ∨
        (c = .check ∧ ∃ chk, check r s = .ok chk (afterCall r c s) ∧ chk.plans.isEmpty = false) ∨
        ((afterCall r c s).phase = s.phase ∧ c.appliesNothing = true)) := by
  cases c with
  | check =>
    rw [afterCall, SessionCall.run, final_bind_pure]
    obtain ⟨hf, hrest, hidle | hchk | hsame⟩ := afterCheck_rests r hs
    · exact ⟨hf, hrest, .inl hidle⟩
    · exact ⟨hf, hrest, .inr (.inl ⟨rfl, hchk⟩)⟩
    · exact ⟨hf, hrest, .inr (.inr ⟨hsame, rfl⟩)⟩
  | apply plans =>
    rw [afterCall, SessionCall.run, final_bind_pure]
    obtain ⟨hf, hidle⟩ := afterApply_idle r plans hs
    exact ⟨hf, .inl hidle, .inl hidle⟩
  | decline plans =>
    rw [afterCall, SessionCall.run, final_bind_pure]
    unfold decline
    split
    · -- nothing enforced: the plan is set aside, when the phase allows it
      rename_i hempty
      obtain ⟨hf, hpost⟩ := ((runs_setAside s).ends s rfl).final_of
        (X := fun s' => s'.phase = .idle ∨ s'.phase = s.phase) (fun _ _ h => .inl h) (fun _ _ h => .inr h)
      rcases hpost with h | h
      · exact ⟨hf, .inl h, .inl h⟩
      · exact ⟨hf, h ▸ hs, .inr (.inr ⟨h, hempty⟩)⟩
    · obtain ⟨hf, hidle⟩ := afterApply_idle r plans.enforcedOnly hs
      exact ⟨hf, .inl hidle, .inl hidle⟩
  | cancel =>
    exact ⟨Follows.of_same rfl rfl rfl, hs, .inr (.inr ⟨rfl, rfl⟩)⟩

theorem apply_refused_phase (r : Remote σ) (plans : PlanSet) {s s' : SyncSession σ} {e : SyncError}
    (h : apply r plans s = .error e s') (he : e.isTransition = true) : s'.phase = s.phase := by
  cases hcan : s.phase.canTransition .transferring with
  | true =>
    -- past the guard every failure aborts, and none is a refused step
    have habort := ((runs_apply r plans).ends s hcan).of_error h
    rw [habort.2] at he
    cases he
  | false => exact (((runs_apply_refused r plans hcan).ends s rfl).of_error h).1

theorem run_refused_phase (r : Remote σ) (c : SessionCall) {s s' : SyncSession σ} {e : SyncError}
    (h : c.run r s = .error e s') (he : e.isTransition = true) : s'.phase = s.phase := by
  cases c with
  | check =>
    have hcheck := bind_pure_eq_error h
    by_cases hidle : s.phase = .idle
    · exact (((runs_check r).ends s hidle).of_error hcheck).trans hidle.symm
    · exact (((runs_check_refused r hidle).ends s rfl).of_error hcheck).1
  | apply plans => exact apply_refused_phase r plans (bind_pure_eq_error h) he
  | decline plans =>
    have hdecline := bind_pure_eq_error h
    unfold decline at hdecline
    split at hdecline
    · exact ((runs_setAside s).ends s rfl).of_error hdecline
    · exact apply_refused_phase r _ hdecline he
  | cancel => cases h

/-- From a resting session, calls keep it resting, by lawful changes. When it
ends up waiting on a plan, nothing after the last check that returned a plan
applied anything, or it was waiting already and none of the calls applied
anything. -/
theorem afterCalls_rests (r : Remote σ) (calls : List SessionCall) {s : SyncSession σ} (hs : s.phase.Resting) :
    Follows s (afterCalls r calls s) ∧ (afterCalls r calls s).phase.Resting ∧
      ((afterCalls r calls s).phase ≠ .idle →
        ((afterCalls r calls s).phase = s.phase ∧ ∀ c ∈ calls, c.appliesNothing = true) ∨
        ∃ pre post chk s₁, calls = pre ++ .check :: post ∧ check r (afterCalls r pre s) = .ok chk s₁ ∧
          chk.plans.isEmpty = false ∧ (afterCalls r calls s).phase = s₁.phase ∧
          ∀ c ∈ post, c.appliesNothing = true) := by
  induction calls generalizing s with
  | nil => exact ⟨Follows.refl s, hs, fun _ => .inl ⟨rfl, fun _ h => nomatch h⟩⟩
  | cons c calls ih =>
    rw [afterCalls_cons]
    obtain ⟨hf₁, hrest₁, hcall⟩ := afterCall_rests r c hs
    obtain ⟨hf, hrest, hwait⟩ := ih hrest₁
    refine ⟨hf₁.trans hf, hrest, fun hne => ?_⟩
    rcases hwait hne with ⟨hphase, hall⟩ | ⟨pre, post, chk, s₁, rfl, hchk, hempty, hphase, hall⟩
    · -- no later call moved the phase, so it is the one `c` left
      rcases hcall with hidle | ⟨rfl, chk, hchk, hempty⟩ | ⟨hphase₁, hc⟩
      · exact absurd (hphase.trans hidle) hne
      · exact .inr ⟨[], calls, chk, _, rfl, hchk, hempty, hphase, hall⟩
      · exact .inl ⟨hphase.trans hphase₁, List.forall_mem_cons.mpr ⟨hc, hall⟩⟩
    · exact .inr ⟨c :: pre, post, chk, s₁, rfl, hchk, hempty, hphase, hall⟩

/-- The phase discipline of sessions. Whatever calls a client makes on a new
session, and however each remote call, lock, transfer and file operation
turns out: every recorded change of phase is one legal step from the phase
before it, the transfer entered only under the sync lock with no staging
directory; the session rests idle, or waits on the plan of a check with no
apply since; and a call refused as an illegal step leaves the phase as it
was. -/
theorem afterCalls_phase_discipline (r : Remote σ) (root : NormalPath) (settings : ClientSettings)
    (tree : FileTree) (remote : σ) (calls : List SessionCall) :
    Lawful (DataDir.forRoot root) .idle (afterCalls r calls (fresh root settings tree remote)).history ∧
      (afterCalls r calls (fresh root settings tree remote)).phase =
        phaseAfter .idle (afterCalls r calls (fresh root settings tree remote)).history ∧
      (afterCalls r calls (fresh root settings tree remote)).phase.Resting ∧
      ((afterCalls r calls (fresh root settings tree remote)).phase ≠ .idle →
        ∃ pre post chk s₁, calls = pre ++ .check :: post ∧
          check r (afterCalls r pre (fresh root settings tree remote)) = .ok chk s₁ ∧
          chk.plans.isEmpty = false ∧ (afterCalls r calls (fresh root settings tree remote)).phase = s₁.phase ∧
          ∀ c ∈ post, c.appliesNothing = true) ∧
      ∀ (c : SessionCall) (s s' : SyncSession σ) (e : SyncError),
        c.run r s = .error e s' → e.isTransition = true → s'.phase = s.phase := by
  obtain ⟨⟨-, h, hhist, hlaw, hphase⟩, hrest, hwait⟩ :=
    afterCalls_rests r calls (s := fresh root settings tree remote) (.inl rfl)
  -- a new session has recorded nothing, so its whole history is the new part
  have hnew : (fresh root settings tree remote : SyncSession σ).history = [] := rfl
  rw [hnew, List.nil_append] at hhist
  refine ⟨hhist ▸ hlaw, hhist ▸ hphase, hrest, fun hne => ?_, fun c _ _ _ => run_refused_phase r c⟩
  rcases hwait hne with ⟨hidle, -⟩ | hcheck
  · exact absurd hidle hne
  · exact hcheck

end SyncSession

end ModMirror
