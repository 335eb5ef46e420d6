import CrateGate.Datum
import CrateGate.Toml.Problem

/-!
# Drafts of TOML tables

A document fills its tables bit by bit, and how a table came to be decides whether it may still be
opened. A value is closed for good. A table that only a longer header implies may get a header of
its own or be reached by dotted keys, once. A table made by dotted keys stays open to dotted keys
until the next header. The last table of an array of tables is open to headers.

* `assign` puts a value under a dotted key below the current header.
* `openTable` and `openArray` do what a header asks for.
-/

namespace CrateGate.Toml

/-- How a table came to be: by being part of a longer header, by a header of its own, or by dotted
keys in the section of that number. -/
inductive Origin
  | implied
  | header
  | dotted (section_ : Nat)
deriving DecidableEq, Repr

/-- What stands under a key so far. -/
inductive Draft
  | value (d : Datum)
  | table (origin : Origin) (entries : List (String × Draft))
  | tables (closed : List Datum) (entries : List (String × Draft))

/-- The entries of a table so far, in the order of their first mention. -/
abbrev Entries := List (String × Draft)

namespace Draft

mutual

/-- The value that a draft has come to. -/
def toDatum : Draft → Datum
  | value d => d
  | table _ entries => .record (toFields entries)
  | tables closed entries => .list (closed ++ [.record (toFields entries)])

/-- The fields that the entries of a table have come to. -/
def toFields : List (String × Draft) → List (String × Datum)
  | [] => []
  | (key, draft) :: entries => (key, toDatum draft) :: toFields entries

end

end Draft

namespace Entries

/-- The entries with `key` standing for `draft`: in its place if it has one, else at the end. -/
def set (key : String) (draft : Draft) : Entries → Entries
  | [] => [(key, draft)]
  | (k, d) :: entries =>
    if k = key then (key, draft) :: entries else (k, d) :: set key draft entries

/-- The entries with a change in the table that a header leads to. On the way, tables are implied
where there are none, and of an array of tables the last one is taken. -/
def below (change : Entries → Except Problem Entries) :
    List String → Entries → Except Problem Entries
  | [], entries => change entries
  | key :: keys, entries =>
    match entries.lookup key with
    | none => do
      let inner ← below change keys []
      .ok (entries.set key (.table .implied inner))
    | some (.table origin inner) => do
      let inner ← below change keys inner
      .ok (entries.set key (.table origin inner))
    | some (.tables closed inner) => do
      let inner ← below change keys inner
      .ok (entries.set key (.tables closed inner))
    | some (.value _) => .error .malformed

/-- Whether dotted keys of a section may go through a table. -/
def admits (section_ : Nat) : Origin → Bool
  | .implied => true
  | .header => false
  | .dotted other => other = section_

/-- The entries with a value put under a dotted key. -/
def put (section_ : Nat) (d : Datum) : List String → Entries → Except Problem Entries
  | [], _ => .error .malformed
  | [key], entries =>
    match entries.lookup key with
    | none => .ok (entries.set key (.value d))
    | some _ => .error .malformed
  | key :: keys, entries =>
    match entries.lookup key with
    | none => do
      let inner ← put section_ d keys []
      .ok (entries.set key (.table (.dotted section_) inner))
    | some (.table origin inner) =>
      if admits section_ origin then do
        let inner ← put section_ d keys inner
        .ok (entries.set key (.table (.dotted section_) inner))
      else .error .malformed
    | some _ => .error .malformed

/-- The entries with the table of a header opened under its last key. -/
def openLast (key : String) (entries : Entries) : Except Problem Entries :=
  match entries.lookup key with
  | none => .ok (entries.set key (.table .header []))
  | some (.table .implied inner) => .ok (entries.set key (.table .header inner))
  | some _ => .error .malformed

/-- The entries with one more table in the array of tables under the last key of a header. -/
def appendLast (key : String) (entries : Entries) : Except Problem Entries :=
  match entries.lookup key with
  | none => .ok (entries.set key (.tables [] []))
  | some (.tables closed inner) =>
    .ok (entries.set key (.tables (closed ++ [.record (Draft.toFields inner)]) []))
  | some _ => .error .malformed

/-- The entries of a document with a value put under a dotted key below a header. -/
def assign (section_ : Nat) (header key : List String) (d : Datum) (entries : Entries) :
    Except Problem Entries :=
  below (put section_ d key) header entries

/-- The entries of a document with the table of a header opened. -/
def openTable (header : List String) (entries : Entries) : Except Problem Entries :=
  match header.getLast? with
  | none => .error .malformed
  | some key => below (openLast key) header.dropLast entries

/-- The entries of a document with one more table in an array of tables. -/
def openArray (header : List String) (entries : Entries) : Except Problem Entries :=
  match header.getLast? with
  | none => .error .malformed
  | some key => below (appendLast key) header.dropLast entries

end Entries

end CrateGate.Toml
