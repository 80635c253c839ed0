import BuildLauncher.Session

/-!
# What an act does

An act sees the file tree and adds to what has happened; it never looks at what happened before.
`Act.Does act t a events t'` states that: started on the tree `t`, whatever came before, the act
gives `a`, adds `events` and leaves the tree `t'`.

* `Act.Does.bind`, `Act.Does.tryBind` and `Act.Does.tryStop` put acts together; the last one is for
  an act that fails, behind which nothing happens any more.
* `Event.children` and `Event.textsOn` are the children that are launched and what is said on a
  stream.
* `Children.Ran` places launches with their outcomes one after the other between two file trees, so
  that every outcome is the one that the children give on the tree of its moment.
* `Host.home?_of_set` and `Host.home?_of_unset` say where the home directory comes from.
-/

namespace BuildLauncher

namespace Act

variable {α β : Type} {t t₁ t₂ : FileTree} {e₁ e₂ : List Event}

/-- Started on the tree `t`, the act gives `a`, adds `events` and leaves the tree `t'`. -/
def Does (act : Act α) (t : FileTree) (a : α) (events : List Event) (t' : FileTree) : Prop :=
  ∀ before : List Event, act.run ⟨t, before⟩ = (a, ⟨t', before ++ events⟩)

theorem Does.pure (a : α) : Does (Pure.pure a) t a [] t := by
  intro before
  rw [List.append_nil]
  rfl

theorem Does.bind {act : Act α} {next : α → Act β} {a : α} {b : β}
    (first : Does act t a e₁ t₁) (second : Does (next a) t₁ b e₂ t₂) :
    Does (act >>= next) t b (e₁ ++ e₂) t₂ := by
  intro before
  rw [StateT.run_bind, first before, ← List.append_assoc]
  exact second (before ++ e₁)

/-- The events in a form that suits the caller. -/
theorem Does.congr {act : Act α} {a : α} (h : Does act t a e₁ t₁) (same : e₁ = e₂) :
    Does act t a e₂ t₁ :=
  same ▸ h

/-- An act gives one value on one tree. -/
theorem Does.unique {act : Act α} {a b : α} (h₁ : Does act t a e₁ t₁) (h₂ : Does act t b e₂ t₂) :
    a = b :=
  congrArg Prod.fst ((h₁ []).symm.trans (h₂ []))

theorem does_say (said : Said) : Does (say said) t () [.said said] t :=
  fun _ => rfl

theorem does_sayAll (said : List Said) : Does (sayAll said) t () (said.map .said) t :=
  fun _ => rfl

theorem does_launch (host : Host) (l : Launch) (t : FileTree) :
    Does (launch host l) t (l.perform host.children t).1
      [.launched l (l.perform host.children t).1] (l.perform host.children t).2 :=
  fun _ => rfl

/-! ## Acts that may fail -/

theorem Does.tryPure (a : α) : Does (Pure.pure a : Try α).run t (.ok a) [] t :=
  Does.pure _

theorem Does.throw (f : Failure) : Does (MonadExcept.throw f : Try α).run t (.error f) [] t :=
  Does.pure _

theorem Does.lift {act : Act α} {a : α} (h : Does act t a e₁ t₁) :
    Does (liftM act : Try α).run t (.ok a) e₁ t₁ := by
  intro before
  change (act >>= fun a => Pure.pure (Except.ok a)).run _ = _
  rw [StateT.run_bind, h before]
  rfl

theorem Does.tryBind {act : Try α} {next : α → Try β} {a : α} {r : Except Failure β}
    (first : Does act.run t (.ok a) e₁ t₁) (second : Does (next a).run t₁ r e₂ t₂) :
    Does (act >>= next).run t r (e₁ ++ e₂) t₂ := by
  rw [ExceptT.run_bind]
  exact Does.bind first second

/-- A result that is there already adds no event. -/
theorem Does.tryOfExcept {first : Except Failure α} {next : α → Try β} {a : α}
    {r : Except Failure β} (ok : first = .ok a) (second : Does (next a).run t r e₁ t₁) :
    Does ((liftM first : Try α) >>= next).run t r e₁ t₁ := by
  subst ok
  exact second

/-- An act that looks at the session sees the tree of the moment. -/
theorem Does.tryGet {next : Session → Try β} {r : Except Failure β}
    (second : ∀ before, (next ⟨t, before⟩).run.run ⟨t, before⟩ = (r, ⟨t₁, before ++ e₁⟩)) :
    Does (get >>= next).run t r e₁ t₁ :=
  second

/-- An act that replaces the tree adds no event. -/
theorem Does.tryModifyTree (f : FileTree → α × FileTree) {next : α → Try β} {a : α}
    {r : Except Failure β} (changed : f t = (a, t₁)) (second : Does (next a).run t₁ r e₁ t₂) :
    Does ((modifyGet fun s => ((f s.tree).1, { s with tree := (f s.tree).2 })) >>= next).run t r
      e₁ t₂ := by
  intro before
  change ((next (f t).1).run.run ⟨(f t).2, before⟩) = _
  rw [changed]
  exact second before

/-- Nothing happens behind a failure. -/
theorem Does.tryStop {act : Try α} {next : α → Try β} {f : Failure}
    (first : Does act.run t (.error f) e₁ t₁) : Does (act >>= next).run t (.error f) e₁ t₁ := by
  rw [ExceptT.run_bind]
  refine (Does.bind first ?_).congr (List.append_nil _)
  exact Does.pure _

theorem Does.tryStopOfExcept {first : Except Failure α} {next : α → Try β} {f : Failure}
    (failed : first = .error f) :
    Does ((liftM first : Try α) >>= next).run t (.error f) [] t := by
  subst failed
  exact Does.pure _

end Act

/-! ## Views of what happens -/

namespace Event

/-- A child as a thing that happens. -/
def ofChild (child : Launch × Outcome) : Event := .launched child.1 child.2

/-- The child that is launched, with its outcome. -/
def child? : Event → Option (Launch × Outcome)
  | .said _ => none
  | .launched l o => some (l, o)

/-- The children that are launched, each with its outcome. -/
def children (events : List Event) : List (Launch × Outcome) := events.filterMap child?

/-- The commands of steps among the children. -/
def steps (events : List Event) : List (Launch × Outcome) :=
  (children events).filter fun child => child.1.role = .step

/-- What is said on one stream. -/
def textsOn (stream : Stream) (events : List Event) : List String :=
  (Session.mk {} events).saidOn stream

variable {stream : Stream} {first second : List Event}

theorem children_append : children (first ++ second) = children first ++ children second :=
  List.filterMap_append

theorem children_said (said : List Said) : children (said.map .said) = [] := by
  induction said with
  | nil => rfl
  | cons s rest ih => exact ih

theorem children_ofChild (launched : List (Launch × Outcome)) :
    children (launched.map ofChild) = launched := by
  induction launched with
  | nil => rfl
  | cons child rest ih => exact congrArg (child :: ·) ih

theorem textsOn_append :
    textsOn stream (first ++ second) = textsOn stream first ++ textsOn stream second :=
  List.filterMap_append

theorem textsOn_ofChild (launched : List (Launch × Outcome)) :
    textsOn stream (launched.map ofChild) = [] := by
  induction launched with
  | nil => rfl
  | cons child rest ih => exact ih

/-- What is said on the other stream does not show. -/
theorem textsOn_out_of_err {said : List Said} (other : ∀ s ∈ said, s.1 = .err) :
    textsOn .out (said.map .said) = [] := by
  induction said with
  | nil => rfl
  | cons s rest ih =>
    obtain ⟨stream, text⟩ := s
    obtain rfl : stream = .err := other _ List.mem_cons_self
    exact ih fun s mem => other s (List.mem_cons_of_mem _ mem)

end Event

/-! ## Children one after the other -/

/-- Launches one after the other: every outcome is the one on the tree that the launches before it
leave. -/
inductive Children.Ran (children : Children) : FileTree → List (Launch × Outcome) → FileTree → Prop
  | nil (t : FileTree) : Ran children t [] t
  | cons {t t₁ t₂ : FileTree} {l : Launch} {o : Outcome} {rest : List (Launch × Outcome)} :
    l.perform children t = (o, t₁) → Ran children t₁ rest t₂ → Ran children t ((l, o) :: rest) t₂

namespace Children.Ran

variable {children : Children} {t t₁ t₂ : FileTree} {first second : List (Launch × Outcome)}

theorem append (h₁ : Ran children t first t₁) (h₂ : Ran children t₁ second t₂) :
    Ran children t (first ++ second) t₂ := by
  induction h₁ with
  | nil => exact h₂
  | cons run _ ih => exact .cons run (ih h₂)

theorem one (l : Launch) :
    Ran children t [(l, (l.perform children t).1)] (l.perform children t).2 :=
  .cons rfl (.nil _)

/-- Children that leave every file tree alone leave it alone one after the other. -/
theorem tree_eq (inert : ∀ t l, (children t l).2 = t) (ran : Ran children t first t₁) : t₁ = t := by
  induction ran with
  | nil => rfl
  | @cons t t₁ t₂ l o rest run _ ih =>
    have kept : (l.perform children t).2 = t := by
      unfold Launch.perform
      split
      · rfl
      · exact inert t l
    rw [run] at kept
    exact ih.trans kept

end Children.Ran

/-! ## The home directory -/

namespace Host

variable {host : Host} {value : Bytes}

/-- A variable with a value names the home directory, whatever the system has on record. -/
theorem home?_of_set (set : host.environment.get? (Utf8.ofString "HOME") = some value)
    (named : value ≠ []) : host.home? = Utf8.decode? value := by
  cases value with
  | nil => exact absurd rfl named
  | cons b rest =>
    unfold home? homeKey
    rw [set]

/-- Without a value of the variable the home directory is the one on record. -/
theorem home?_of_unset
    (unset : host.environment.get? (Utf8.ofString "HOME") = none ∨
      host.environment.get? (Utf8.ofString "HOME") = some []) :
    host.home? = host.recordedHome.bind Utf8.decode? := by
  unfold home? homeKey
  rcases unset with missing | empty
  · rw [missing]
  · rw [empty]

end Host

end BuildLauncher
