import Mathlib.Data.List.Basic
import RunParams.Proofs.Registrations

/-!
# Finalizers

A new parameter may bring a finalizer, which is queued. Closing the registry runs the queue in the order of registration, up to
the first finalizer that fails, and drops the rest. So over any run of operations each finalizer that was queued runs at most
once, and none runs that was not.
-/

namespace RunParams

/-- What can be done with a registry. What its finalizers do is told when it is closed, and may be anything that they can do. -/
inductive RegistryCommand (φ ε : Type)
  | register (r : Record) (finalizer : Option φ)
  | hide (name : String)
  | lookup (action name : String)
  | close (task : φ → Registry φ → Task φ ε)
  | clear

namespace Registry

variable {φ ε : Type}

/-! ## Closed registries -/

/-- A registration that is refused, or that is a repeated one, leaves the registry. -/
theorem register_of_not_new {reg : Registry φ} {r : Record} {finalizer : Option φ}
    (h : (reg.register r finalizer).2 ≠ .ok true) : (reg.register r finalizer).1 = reg := by
  unfold register at h ⊢
  split
  · rename_i hadmits
    rw [hadmits] at h
    exact absurd rfl h
  · rfl

/-- A registration of a new parameter queues its finalizer, and keeps the registry open. -/
theorem register_of_new {reg : Registry φ} {r : Record} {finalizer : Option φ} (h : (reg.register r finalizer).2 = .ok true) :
    reg.isOpen = true ∧ (reg.register r finalizer).1.isOpen = true ∧
      (reg.register r finalizer).1.pending = reg.pending ++ finalizer.toList := by
  have hadmits : reg.admits r = .ok true := by
    unfold register at h
    split at h
    · assumption
    · exact h
  have ho := (admits_eq_true_iff.mp hadmits).1
  rw [register, hadmits]
  exact ⟨ho, ho, rfl⟩

/-- A closed registry refuses every registration. -/
theorem register_of_closed {reg : Registry φ} (hc : reg.isOpen = false) (r : Record) (finalizer : Option φ) :
    ∃ text, reg.register r finalizer = (reg, .error (.closed text)) := by
  refine ⟨s!"Parameter registration was already closed before the parameter '{r.name}' was registered.", ?_⟩
  have hadmits : reg.admits r =
      .error (.closed s!"Parameter registration was already closed before the parameter '{r.name}' was registered.") := by
    rw [admits, requireOpen, hc]
    rfl
  rw [register, hadmits]

/-- The answers to the registrations that a finalizer attempts. -/
def answers (reg : Registry φ) : Task φ ε → List (Except RegistryError Bool)
  | .done => []
  | .fail _ => []
  | .register r finalizer next =>
    let (reg, answer) := reg.register r finalizer
    answer :: reg.answers (next answer)

/-- Whatever a finalizer does, it leaves a closed registry, and all registrations that it attempts are refused. -/
theorem perform_of_closed {reg : Registry φ} (hc : reg.isOpen = false) (task : Task φ ε) :
    (reg.perform task).1 = reg ∧ ∀ answer ∈ reg.answers task, ∃ text, answer = .error (.closed text) := by
  induction task with
  | done => exact ⟨rfl, by simp [answers]⟩
  | fail e => exact ⟨rfl, by simp [answers]⟩
  | register r finalizer next ih =>
    obtain ⟨text, hregister⟩ := register_of_closed hc r finalizer
    obtain ⟨hreg, hanswers⟩ := ih (.error (.closed text))
    rw [perform, answers, hregister]
    exact ⟨hreg, List.forall_mem_cons.mpr ⟨⟨text, rfl⟩, hanswers⟩⟩

/-! ## Running the queue -/

/-- The error of a finalizer on a registry, if it fails. -/
def failure? (task : φ → Registry φ → Task φ ε) (reg : Registry φ) (f : φ) : Option ε :=
  (reg.perform (task f reg)).2

/-- What is run of a queue: all of it if no finalizer fails, and otherwise those up to the first that does. -/
inductive RunsUpTo (failure? : φ → Option ε) : (queue ran : List φ) → Option ε → Prop
  | all {queue : List φ} (h : ∀ f ∈ queue, failure? f = none) : RunsUpTo failure? queue queue none
  | failed {before rest : List φ} {f : φ} {e : ε} (hbefore : ∀ g ∈ before, failure? g = none) (hf : failure? f = some e) :
      RunsUpTo failure? (before ++ f :: rest) (before ++ [f]) (some e)

theorem RunsUpTo.cons {failure? : φ → Option ε} {queue ran : List φ} {error : Option ε} {f : φ} (hf : failure? f = none)
    (h : RunsUpTo failure? queue ran error) : RunsUpTo failure? (f :: queue) (f :: ran) error := by
  cases h with
  | all h => exact .all (List.forall_mem_cons.mpr ⟨hf, h⟩)
  | @failed before rest g e hbefore hg =>
    exact @RunsUpTo.failed _ _ _ (f :: before) rest g e (List.forall_mem_cons.mpr ⟨hf, hbefore⟩) hg

/-- What is run of a queue are its first finalizers. -/
theorem RunsUpTo.isPrefix {failure? : φ → Option ε} {queue ran : List φ} {error : Option ε}
    (h : RunsUpTo failure? queue ran error) : ran <+: queue := by
  cases h with
  | all _ => exact List.prefix_refl _
  | @failed before rest f e _ _ => exact ⟨rest, by simp⟩

/-- The finalizers of a closed registry run up to the first that fails, and leave the registry. -/
theorem finish_of_closed {reg : Registry φ} (hc : reg.isOpen = false) (task : φ → Registry φ → Task φ ε) (queue : List φ) :
    (finish task reg queue).registry = reg ∧
      RunsUpTo (failure? task reg) queue (finish task reg queue).ran (finish task reg queue).error := by
  induction queue with
  | nil => exact ⟨rfl, .all (by simp)⟩
  | cons f queue ih =>
    have hreg := (perform_of_closed hc (task f reg)).1
    rw [finish]
    split
    · rename_i reg' e hperform
      rw [hperform] at hreg
      exact ⟨hreg, @RunsUpTo.failed _ _ _ [] queue f e (by simp) (congrArg Prod.snd hperform)⟩
    · rename_i reg' hperform
      rw [hperform] at hreg
      obtain rfl : reg' = reg := hreg
      exact ⟨ih.1, ih.2.cons (congrArg Prod.snd hperform)⟩

/-- Closing an open registry runs what is pending, up to the first that fails. -/
theorem close_of_open {reg : Registry φ} (ho : reg.isOpen = true) (task : φ → Registry φ → Task φ ε) :
    ∃ closing, reg.close task = .ok closing ∧ closing.registry = reg.afterClose ∧
      RunsUpTo (failure? task reg.afterClose) reg.pending closing.ran closing.error := by
  have hc : reg.afterClose.isOpen = false := rfl
  obtain ⟨hreg, hran⟩ := finish_of_closed hc task reg.pending
  exact ⟨finish task reg.afterClose reg.pending, by rw [close_eq, if_pos ho], hreg, hran⟩

/-- Closing a closed registry is refused. -/
theorem close_of_closed {reg : Registry φ} (hc : reg.isOpen = false) (task : φ → Registry φ → Task φ ε) :
    ∃ text, reg.close task = .error (.closed text) := by
  have hno : ¬reg.isOpen = true := by simp [hc]
  exact ⟨_, by rw [close_eq, if_neg hno]⟩

/-! ## Runs of commands -/

/-- The registry after a command, whether that succeeds or fails. -/
def after (reg : Registry φ) : RegistryCommand φ ε → Registry φ
  | .register r finalizer => (reg.register r finalizer).1
  | .hide name => (reg.hide name).1
  | .lookup _ _ => reg
  | .close task =>
    match reg.close task with
    | .ok closing => closing.registry
    | .error _ => reg
  | .clear => empty

/-- The finalizers that a command queues: that of a parameter that turns out to be new. -/
def queuedBy (reg : Registry φ) : RegistryCommand φ ε → List φ
  | .register r finalizer =>
    match (reg.register r finalizer).2 with
    | .ok true => finalizer.toList
    | _ => []
  | _ => []

/-- The finalizers that a command runs. -/
def ranBy (reg : Registry φ) : RegistryCommand φ ε → List φ
  | .close task =>
    match reg.close task with
    | .ok closing => closing.ran
    | .error _ => []
  | _ => []

/-- The registry after commands. -/
def afterAll (reg : Registry φ) (commands : List (RegistryCommand φ ε)) : Registry φ :=
  commands.foldl after reg

/-- The finalizers that commands queue, in order. -/
def queued (reg : Registry φ) : List (RegistryCommand φ ε) → List φ
  | [] => []
  | command :: commands => reg.queuedBy command ++ (reg.after command).queued commands

/-- The finalizers that commands run, in order. -/
def ran (reg : Registry φ) : List (RegistryCommand φ ε) → List φ
  | [] => []
  | command :: commands => reg.ranBy command ++ (reg.after command).ran commands

/-- What a registration does to the queue. -/
theorem pending_register (reg : Registry φ) (r : Record) (finalizer : Option φ) :
    (reg.register r finalizer).1.isOpen = reg.isOpen ∧
      (reg.register r finalizer).1.pending =
        reg.pending ++ reg.queuedBy (.register r finalizer : RegistryCommand φ ε) := by
  rw [queuedBy]
  split
  · rename_i h
    obtain ⟨ho, ho', hpending⟩ := register_of_new h
    exact ⟨ho'.trans ho.symm, hpending⟩
  · rename_i h
    rw [register_of_not_new h]
    exact ⟨rfl, by simp⟩

/-- What hiding does to the queue, namely nothing. -/
theorem pending_hide (reg : Registry φ) (name : String) :
    (reg.hide name).1.isOpen = reg.isOpen ∧ (reg.hide name).1.pending = reg.pending := by
  rcases reg.hide_fst name with h | ⟨-, h⟩ <;> rw [h] <;> exact ⟨rfl, rfl⟩

/-- What a command runs, and then what it leaves pending, was pending before or is queued by it. -/
theorem ranBy_append_pending (reg : Registry φ) (command : RegistryCommand φ ε) :
    (reg.ranBy command ++ (reg.after command).pending).Sublist (reg.pending ++ reg.queuedBy command) := by
  cases command with
  | register r finalizer =>
    have hpending := (@pending_register φ ε reg r finalizer).2
    simp only [ranBy, after, List.nil_append, hpending, List.Sublist.refl]
  | hide name => simp [ranBy, after, queuedBy, (reg.pending_hide name).2]
  | lookup action name => simp [ranBy, after, queuedBy]
  | close task =>
    by_cases ho : reg.isOpen = true
    · obtain ⟨closing, hclose, hreg, hran⟩ := close_of_open ho task
      simp only [ranBy, after, queuedBy, hclose, hreg, afterClose, List.append_nil]
      exact hran.isPrefix.sublist
    · obtain ⟨text, hclose⟩ := close_of_closed (by simpa using ho) task
      simp [ranBy, after, queuedBy, hclose]
  | clear => simp [ranBy, after, queuedBy, empty]

/-- What commands run was pending before them or is queued by them, and they run it in that order. -/
theorem ran_sublist (reg : Registry φ) (commands : List (RegistryCommand φ ε)) :
    (reg.ran commands).Sublist (reg.pending ++ reg.queued commands) := by
  induction commands generalizing reg with
  | nil => exact List.nil_sublist _
  | cons command commands ih =>
    rw [ran, queued]
    have hstep := (reg.ranBy_append_pending command).append_right ((reg.after command).queued commands)
    have hrest := (ih (reg.after command)).append_left (reg.ranBy command)
    rw [← List.append_assoc] at hrest ⊢
    exact hrest.trans hstep

/-- A registry that is open after a command that does not clear it was open before, and the command did nothing to its queue but
add to it. -/
theorem pending_after {reg : Registry φ} {command : RegistryCommand φ ε} (hclear : command ≠ .clear)
    (ho : (reg.after command).isOpen = true) :
    reg.isOpen = true ∧ (reg.after command).pending = reg.pending ++ reg.queuedBy command := by
  cases command with
  | register r finalizer =>
    obtain ⟨hopen, hpending⟩ := @pending_register φ ε reg r finalizer
    exact ⟨hopen ▸ ho, hpending⟩
  | hide name =>
    obtain ⟨hopen, hpending⟩ := reg.pending_hide name
    exact ⟨hopen ▸ ho, by simp [after, queuedBy, hpending]⟩
  | lookup action name => exact ⟨ho, by simp [after, queuedBy]⟩
  | close task =>
    by_cases hopen : reg.isOpen = true
    · obtain ⟨closing, hclose, hreg, -⟩ := close_of_open hopen task
      simp only [after, hclose, hreg] at ho
      cases ho
    · obtain ⟨text, hclose⟩ := close_of_closed (by simpa using hopen) task
      simp only [after, hclose] at ho
      exact absurd ho hopen
  | clear => exact absurd rfl hclear

/-- What is pending in a registry that is still open is what was pending, and what has been queued since. -/
theorem pending_afterAll {reg : Registry φ} {commands : List (RegistryCommand φ ε)} (hclear : .clear ∉ commands)
    (ho : (reg.afterAll commands).isOpen = true) :
    reg.isOpen = true ∧ (reg.afterAll commands).pending = reg.pending ++ reg.queued commands := by
  induction commands generalizing reg with
  | nil => exact ⟨ho, by simp [afterAll, queued]⟩
  | cons command commands ih =>
    rw [List.mem_cons, not_or] at hclear
    obtain ⟨hopen, hpending⟩ := ih hclear.2 ho
    obtain ⟨hopen', hpending'⟩ := pending_after (Ne.symm hclear.1) hopen
    refine ⟨hopen', hpending.trans ?_⟩
    rw [hpending', queued, List.append_assoc]

theorem afterAll_append (reg : Registry φ) (earlier since : List (RegistryCommand φ ε)) :
    reg.afterAll (earlier ++ since) = (reg.afterAll earlier).afterAll since := by
  rw [afterAll, List.foldl_append]
  rfl

/-- In every run of commands from the empty registry, the finalizers that run are some of those that were queued, in the order of
their registration and each for the one time that it was queued. Closing is refused by a closed registry. In an open one it runs
those queued since the last clearing, or since the start, all of them or up to the first that fails; every registration that they
attempt is refused; and what runs at any time later has been queued after that. A registration that is refused or repeated leaves
the registry, and so queues nothing. -/
theorem finalizers_run_once {earlier since : List (RegistryCommand φ ε)}
    (hearlier : earlier = [] ∨ earlier.getLast? = some .clear) (hsince : .clear ∉ since)
    (task : φ → Registry φ → Task φ ε) :
    let reg := (empty : Registry φ).afterAll (earlier ++ since)
    let queue := ((empty : Registry φ).afterAll earlier).queued since
    ((empty : Registry φ).ran (earlier ++ since)).Sublist ((empty : Registry φ).queued (earlier ++ since)) ∧
    (reg.isOpen = false → ∃ text, reg.close task = .error (.closed text)) ∧
    (reg.isOpen = true → ∃ closing, reg.close task = .ok closing ∧
      RunsUpTo (failure? task reg.afterClose) queue closing.ran closing.error ∧ closing.registry = reg.afterClose ∧
      (∀ f ∈ closing.ran, ∀ answer ∈ reg.afterClose.answers (task f reg.afterClose), ∃ text, answer = .error (.closed text)) ∧
      ∀ later : List (RegistryCommand φ ε), (closing.registry.ran later).Sublist (closing.registry.queued later)) ∧
    ∀ r finalizer, (reg.register r finalizer).2 ≠ .ok true → (reg.register r finalizer).1 = reg := by
  intro reg queue
  have hstart : (empty : Registry φ).afterAll earlier = empty := by
    rcases hearlier with rfl | hlast
    · rfl
    · obtain ⟨commands, rfl⟩ := List.getLast?_eq_some_iff.mp hlast
      rw [afterAll_append]
      rfl
  have hreg : reg = (empty : Registry φ).afterAll since := by
    rw [← congrArg (afterAll · since) hstart]
    exact afterAll_append empty earlier since
  refine ⟨ran_sublist empty (earlier ++ since), fun hc => close_of_closed hc task, fun ho => ?_,
    fun r finalizer => register_of_not_new⟩
  obtain ⟨closing, hclose, hclosed, hran⟩ := close_of_open ho task
  have hpending : reg.pending = queue := by
    rw [hreg] at ho ⊢
    rw [(pending_afterAll hsince ho).2, show queue = _ from congrArg (queued · since) hstart]
    rfl
  rw [hpending] at hran
  refine ⟨closing, hclose, hran, hclosed, fun f _ => (perform_of_closed rfl _).2, fun later => ?_⟩
  have hlater := ran_sublist closing.registry later
  rwa [hclosed] at hlater ⊢

/-- The second of three finalizers fails, after an attempt to register another parameter. One that was queued before the registry
was cleared is not run, nor is that of a repeated registration. -/
theorem finalizers_run_once_of_failure :
    let record (name : String) : Record := ⟨name, none, "", "", false⟩
    let task (f : String) (_ : Registry String) : Task String String :=
      if f = "b" then .register (record "D") (some "d") fun _ => .fail "broken" else .done
    let earlier : List (RegistryCommand String String) := [.register (record "A") (some "old"), .clear]
    let since : List (RegistryCommand String String) := [.register (record "A") (some "a"),
      .register (record "A") (some "again"), .register (record "B") (some "b"), .register (record "C") (some "c")]
    let reg := (empty : Registry String).afterAll (earlier ++ since)
    earlier.getLast? = some .clear ∧ ((empty : Registry String).afterAll earlier).queued since = ["a", "b", "c"] ∧
      ∃ closing, reg.close task = .ok closing ∧ closing.ran = ["a", "b"] ∧ closing.error = some "broken" ∧
        RunsUpTo (failure? task reg.afterClose) ["a", "b", "c"] closing.ran closing.error := by
  intro record task earlier since reg
  have hqueue : ((empty : Registry String).afterAll earlier).queued since = ["a", "b", "c"] := by decide +kernel
  have hclosing : (reg.close task).map (fun closing => (closing.ran, closing.error)) = .ok (["a", "b"], some "broken") := by
    decide +kernel
  obtain ⟨-, -, hopen, -⟩ := @finalizers_run_once String String earlier since (.inr rfl) (by simp [since]) task
  obtain ⟨closing, hclose, hran, -⟩ := hopen (by decide +kernel)
  rw [show reg.close task = .ok closing from hclose] at hclosing
  obtain ⟨hran', herror⟩ := Prod.mk.inj (Except.ok.inj hclosing)
  rw [hqueue] at hran
  exact ⟨rfl, hqueue, closing, hclose, hran', herror, hran⟩

end Registry

end RunParams
