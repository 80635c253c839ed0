import BuildLauncher.Toml.Node

/-!
# Adding to tables

Which tables may still grow, and how.  A key is never given two values: every function here refuses
a path at which there is already something that the new entry would overwrite or reopen.
-/

namespace BuildLauncher.Toml.Entries

/-- Replaces the last table of a list. -/
def alterLast? (f : Entries → Option Entries) : List Entries → Option (List Entries)
  | [] => none
  | [last] => (f last).map ([·])
  | first :: rest => (alterLast? f rest).map (first :: ·)

/-- Changes the table that a header's path names.  Parents that do not exist yet are implied; of an
array of tables, the path means the last one. -/
def alterAt? (f : Entries → Option Entries) : List Key → Entries → Option Entries
  | [], entries => f entries
  | key :: path, entries =>
    entries.alter? key fun
      | none => (alterAt? f path []).map (.table .implied)
      | some (.table origin inner) =>
        if origin = .inline then none else (alterAt? f path inner).map (.table origin)
      | some (.tables elements) => (alterLast? (alterAt? f path) elements).map .tables
      | some _ => none

/-- Opens the table of a header: a new one, or one that has only been implied so far. -/
def openTable (key : Key) (entries : Entries) : Option Entries :=
  entries.alter? key fun
    | none => some (.table .header [])
    | some (.table .implied inner) => some (.table .header inner)
    | some _ => none

/-- Opens a further table of an array of tables. -/
def openElement (key : Key) (entries : Entries) : Option Entries :=
  entries.alter? key fun
    | none => some (.tables [[]])
    | some (.tables elements) => some (.tables (elements ++ [[]]))
    | some _ => none

/-- Gives a value to a dotted key.  The last part must be new; the parts before it name tables that
dots made, or make them.  Tables with a header of their own, tables implied by a header right above
the last part, and tables in braces are not added to. -/
def assign (entries : Entries) : List Key → Node → Option Entries
  | [], _ => none
  | [key], node => entries.alter? key fun
    | none => some node
    | some _ => none
  | key :: path, node => entries.alter? key fun
    | none => (assign [] path node).map (.table .dotted)
    | some (.table .dotted inner) => (assign inner path node).map (.table .dotted)
    | some (.table .implied inner) =>
      if path.length = 1 then none else (assign inner path node).map (.table .implied)
    | some (.tables elements) =>
      if path.length = 1 then none
      else (alterLast? (fun inner => assign inner path node) elements).map .tables
    | some _ => none

end BuildLauncher.Toml.Entries
