import BuildLauncher.Proofs.Configuration.Creation
import Mathlib.Data.List.Induction

/-!
# Calls one after the other

The launcher looks at files and makes new ones, and that is all it does to a file tree.

* `Configuration.Call.perform_cases`: one call makes one file or leaves the tree as it is.
* `Configuration.Call.get?_treeAfter`, `Configuration.Call.exists_made`: what a sequence of calls
  keeps, and where everything comes from that it adds.
* `Configuration.load_cases`, `Configuration.Call.written_stays`: what is read, and what becomes of
  a file once it is written.
* `Configuration.calls_only_add`: all of it, for any tree and any sequence of calls.
-/

namespace BuildLauncher

namespace Configuration

open FileTree

variable {t t' : FileTree} {here : Place} {path root : Bytes}

/-- Configuring makes the file, or changes nothing. -/
theorem configure_cases (t : FileTree) (here : Place) (root : Bytes) :
    (∃ place t', configure t .complete here root = (.ok (.created (Configuration.path root)), t') ∧
        Adds t t' place (.file (Utf8.ofString template) false)) ∨
      ∃ r, configure t .complete here root = (r, t) ∧ ∀ made, r ≠ .ok (.created made) := by
  unfold configure
  dsimp only
  split
  · exact .inr ⟨_, rfl, fun _ => nofun⟩
  · rcases writeNew_cases t .complete here (Configuration.path root) (Utf8.ofString template)
      "create build configuration" rfl with
      ⟨parent, name, t', -, written, adds⟩ | ⟨f, failed, -⟩
    · rw [written]
      exact .inl ⟨_, t', rfl, adds⟩
    · rw [failed]
      exact .inr ⟨_, rfl, fun _ => nofun⟩

/-- The configuration is that of the text at the path, or the default one if there is no text. -/
theorem load_cases (t : FileTree) (here : Place) (path : Bytes) :
    (∃ text, Holds t here path text ∧ load t here path = parse text) ∨
      (∀ text, ¬ Holds t here path text) ∧ load t here path = {} := by
  unfold load readFor
  cases read : t.readText here path with
  | ok text => exact .inl ⟨text, readText_eq_ok_iff.mp read, rfl⟩
  | error e =>
    refine .inr ⟨fun text holds => ?_, rfl⟩
    rw [readText_eq_ok_iff.mpr holds] at read
    cases read

/-! ## One call -/

/-- A call that looks at a file or makes one. -/
inductive Call where
  | configure (root : Bytes)
  | load (path : Bytes)
  | read (path : Bytes) (context : String)
  | write (path : Bytes) (content context : String)

/-- What a call comes back with. -/
inductive Answer where
  | configured (result : Except Failure Configured)
  | loaded (conf : Configuration)
  | read (result : Except Failure String)
  | written (result : Except Failure Unit)

/-- The answer of a call that has made a file. -/
inductive Answer.Made : Answer → Prop
  | created (path : Bytes) : Made (configured (.ok (.created path)))
  | written : Made (written (.ok ()))

namespace Call

/-- The answer of a call, and the tree afterwards. -/
def perform (here : Place) (t : FileTree) : Call → Answer × FileTree
  | configure root =>
    let (result, t) := Configuration.configure t .complete here root
    (.configured result, t)
  | load path => (.loaded (Configuration.load t here path), t)
  | read path context => (.read (t.readFor here path context), t)
  | write path content context =>
    let (result, t) := t.writeNew .complete here path (Utf8.ofString content) context
    (.written result, t)

/-- What the file holds that a call makes, if it is to make one. -/
def content? : Call → Option String
  | configure _ => some template
  | write _ content _ => some content
  | load _ | read _ _ => none

theorem perform_configure {result : Except Failure Configured}
    (configured : Configuration.configure t .complete here root = (result, t')) :
    (configure root).perform here t = (.configured result, t') := by
  rw [perform, configured]

theorem perform_write {content context : String} {result : Except Failure Unit}
    (written : t.writeNew .complete here path (Utf8.ofString content) context = (result, t')) :
    (write path content context).perform here t = (.written result, t') := by
  rw [perform, written]

/-- One call makes one file, with the content it has for it, or leaves the tree as it is. -/
theorem perform_cases (here : Place) (t : FileTree) (call : Call) :
    (∃ place content, (call.perform here t).1.Made ∧ call.content? = some content ∧
        Adds t (call.perform here t).2 place (.file (Utf8.ofString content) false)) ∨
      ¬ (call.perform here t).1.Made ∧ (call.perform here t).2 = t := by
  cases call with
  | configure root =>
    rcases configure_cases t here root with ⟨place, t', made, adds⟩ | ⟨r, same, other⟩
    · rw [perform_configure made]
      exact .inl ⟨place, template, .created _, rfl, adds⟩
    · rw [perform_configure same]
      refine .inr ⟨fun made => ?_, rfl⟩
      cases made with
      | created made => exact other made rfl
  | load path => exact .inr ⟨nofun, rfl⟩
  | read path context => exact .inr ⟨nofun, rfl⟩
  | write path content context =>
    rcases writeNew_cases t .complete here path (Utf8.ofString content) context rfl with
      ⟨parent, name, t', -, written, adds⟩ | ⟨f, failed, -⟩
    · rw [perform_write written]
      exact .inl ⟨_, content, .written, rfl, adds⟩
    · rw [perform_write failed]
      exact .inr ⟨nofun, rfl⟩

/-- A call keeps every entry. -/
theorem get?_perform {place : Place} {e : Entry} (call : Call) (stands : t.get? place = some e) :
    (call.perform here t).2.get? place = some e := by
  rcases call.perform_cases here t with ⟨made, content, -, -, adds⟩ | ⟨-, same⟩
  · exact adds.kept stands
  · rw [same]
    exact stands

/-! ## Sequences of calls -/

/-- The tree after calls that are performed one after the other. -/
def treeAfter (here : Place) (t : FileTree) (calls : List Call) : FileTree :=
  calls.foldl (fun t call => (call.perform here t).2) t

theorem treeAfter_append (calls later : List Call) :
    treeAfter here t (calls ++ later) = treeAfter here (treeAfter here t calls) later :=
  List.foldl_append

/-- Calls keep every entry. -/
theorem get?_treeAfter {place : Place} {e : Entry} (calls : List Call)
    (stands : t.get? place = some e) : (treeAfter here t calls).get? place = some e := by
  induction calls generalizing t with
  | nil => exact stands
  | cons call calls ih => exact ih (get?_perform call stands)

/-- Whatever is new has been made by one of the calls. -/
theorem exists_made {place : Place} {e : Entry} (calls : List Call) (free : t.get? place = none)
    (stands : (treeAfter here t calls).get? place = some e) :
    ∃ before call behind content, calls = before ++ call :: behind ∧
      (call.perform here (treeAfter here t before)).1.Made ∧ call.content? = some content ∧
      e = .file (Utf8.ofString content) false ∧
      Adds (treeAfter here t before) (treeAfter here t (before ++ [call])) place e := by
  induction calls using List.reverseRecOn with
  | nil =>
    rw [treeAfter, List.foldl_nil, free] at stands
    cases stands
  | append_singleton calls call ih =>
    -- What stands there before the last call has been made earlier; else that call has made it.
    cases there : (treeAfter here t calls).get? place with
    | some e' =>
      have same : (treeAfter here t (calls ++ [call])).get? place = some e' := by
        rw [treeAfter_append]
        exact get?_perform call there
      obtain rfl := Option.some.inj (stands.symm.trans same)
      obtain ⟨before, made, behind, content, rfl, found⟩ := ih there
      exact ⟨before, made, behind ++ [call], content, List.append_assoc _ _ _, found⟩
    | none =>
      rw [treeAfter_append] at stands
      rcases call.perform_cases here (treeAfter here t calls) with
        ⟨new, content, made, given, adds⟩ | ⟨-, same⟩
      · have at_new : place = new := by
          by_contra apart
          have kept := adds.others place apart
          rw [there] at kept
          rw [treeAfter, List.foldl_cons, List.foldl_nil, kept] at stands
          cases stands
        subst at_new
        obtain rfl := Option.some.inj (stands.symm.trans adds.added)
        refine ⟨calls, call, [], content, rfl, made, given, rfl, ?_⟩
        rw [treeAfter_append]
        exact adds
      · rw [treeAfter, List.foldl_cons, List.foldl_nil, same, there] at stands
        cases stands

/-- A file that has been written is read as what was written, and cannot be written again. -/
theorem written_stays {content context : String} (later : List Call)
    (written : ((write path content context).perform here t).1 = .written (.ok ())) :
    Holds (treeAfter here t (write path content context :: later)) here path content ∧
      ∃ e, (treeAfter here t (write path content context :: later)).newPlace here path =
        .error e := by
  rcases writeNew_cases t .complete here path (Utf8.ofString content) context rfl with
    ⟨parent, name, t', designates, made, adds⟩ | ⟨f, failed, -⟩
  · have after : treeAfter here t (write path content context :: later) =
        treeAfter here t' later := by
      rw [treeAfter, List.foldl_cons, perform_write made]
      rfl
    have stands : (treeAfter here t' later).get? (parent ++ [name]) =
        some (.file (Utf8.ofString content) false) :=
      get?_treeAfter later adds.added
    have still : Designates (treeAfter here t' later) here path parent name :=
      (designates.mono fun stands => adds.kept stands).mono (get?_treeAfter later)
    rw [after]
    refine ⟨⟨_, _, still.resolves stands, stands⟩, .system .alreadyExists, ?_⟩
    rw [newPlace_of_designates still, stands]
    rfl
  · rw [perform_write failed] at written
    cases written

end Call

/-- **Calls only add files.**  Every sequence of calls keeps every entry of the tree, and whatever
is new has been made by one of the calls, which says so in its answer and gives the content; a call
with any other answer changes nothing, and reading and loading never change anything.  Once a text
has been written to a path, that text is read there from then on, and nothing is written there
again.  Loading gives the default configuration unless the path leads to a file with a text. -/
theorem calls_only_add (here : Place) (t : FileTree) (calls : List Call) :
    (∀ place e, t.get? place = some e → (Call.treeAfter here t calls).get? place = some e) ∧
    (∀ place e, t.get? place = none → (Call.treeAfter here t calls).get? place = some e →
      ∃ before call behind content, calls = before ++ call :: behind ∧
        (call.perform here (Call.treeAfter here t before)).1.Made ∧
        call.content? = some content ∧ e = .file (Utf8.ofString content) false ∧
        Adds (Call.treeAfter here t before) (Call.treeAfter here t (before ++ [call])) place e) ∧
    (∀ call : Call, ¬ (call.perform here (Call.treeAfter here t calls)).1.Made →
      (call.perform here (Call.treeAfter here t calls)).2 = Call.treeAfter here t calls) ∧
    (∀ path context,
      ((Call.read path context).perform here (Call.treeAfter here t calls)).2 =
          Call.treeAfter here t calls ∧
        ((Call.load path).perform here (Call.treeAfter here t calls)).2 =
          Call.treeAfter here t calls) ∧
    (∀ path content context later,
      ((Call.write path content context).perform here (Call.treeAfter here t calls)).1 =
        .written (.ok ()) →
      (∀ context', ((Call.read path context').perform here
          (Call.treeAfter here t (calls ++ .write path content context :: later))).1 =
        .read (.ok content)) ∧
      ∀ content' context', ∃ f, ((Call.write path content' context').perform here
          (Call.treeAfter here t (calls ++ .write path content context :: later))).1 =
        .written (.error f) ∧ f.code = .io) ∧
    ∀ path,
      (∃ text, Holds (Call.treeAfter here t calls) here path text ∧
        ((Call.load path).perform here (Call.treeAfter here t calls)).1 = .loaded (parse text)) ∨
      (∀ text, ¬ Holds (Call.treeAfter here t calls) here path text) ∧
        ((Call.load path).perform here (Call.treeAfter here t calls)).1 = .loaded {} := by
  refine ⟨fun _ _ => Call.get?_treeAfter calls, fun _ _ => Call.exists_made calls, ?_,
    fun _ _ => ⟨rfl, rfl⟩, ?_, ?_⟩
  · intro call silent
    rcases call.perform_cases here (Call.treeAfter here t calls) with
      ⟨place, content, made, -⟩ | ⟨-, same⟩
    · exact absurd made silent
    · exact same
  · intro path content context later written
    obtain ⟨holds, e, refused⟩ := Call.written_stays later written
    rw [← Call.treeAfter_append] at holds refused
    refine ⟨fun context' => ?_, fun content' context' => ?_⟩
    · rw [Call.perform, readFor, readText_eq_ok_iff.mpr holds]
      rfl
    · have failed := writeNew_of_error refused .complete (Utf8.ofString content') context'
      rw [Call.perform_write failed]
      exact ⟨_, rfl, rfl⟩
  · intro path
    rw [Call.perform]
    rcases load_cases (Call.treeAfter here t calls) here path with
      ⟨text, holds, same⟩ | ⟨none, same⟩
    · exact .inl ⟨text, holds, congrArg Answer.loaded same⟩
    · exact .inr ⟨none, congrArg Answer.loaded same⟩

end Configuration

end BuildLauncher
