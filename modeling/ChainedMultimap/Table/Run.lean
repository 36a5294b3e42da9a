import ChainedMultimap.Table.Insert
import ChainedMultimap.Table.Remove

/-!
# Runs of commands

The operations that change a table, as commands with replies. Every command of a run comes with its
own allocator, so memory can become scarce or plentiful again at any time. A command that fails
replies with its error, and the run goes on.
-/

namespace ChainedMultimap

/-- An operation that can change a table. -/
inductive Command (K Y : Type) where
  /-- Insert a pair as the table was told to hold it. -/
  | insert (key : K) (yield : Y)
  /-- Move a pair into the table. -/
  | insertOwned (key : K) (yield : Y)
  /-- Remove every match. -/
  | remove (key : Option K) (yield : Option Y)
  /-- Remove one item. -/
  | removeItem (handle : Handle)
  /-- Remove everything. -/
  | reset
  /-- Rebuild the chains for a requested number of buckets. -/
  | rebuild (request : Nat)
  /-- Change a yield in place. -/
  | updateYield (handle : Handle) (change : Y → Y)

/-- What a command answers. -/
inductive Reply (K Y : Type) where
  /-- The handle of the new item, or why there is none. -/
  | inserted (outcome : Except TableError Handle)
  /-- How many items were removed. -/
  | removed (count : Nat)
  /-- The pair removed, unless the handle named none. -/
  | handedBack (pair : Option (Held K × Held Y))
  /-- Everything was removed. -/
  | emptied
  /-- Whether the rebuild succeeded. -/
  | rebuilt (outcome : Except TableError Unit)
  /-- Whether the handle named an item. -/
  | updated (found : Bool)

namespace Table

variable {K Y : Type} [Storable K] [Storable Y]

/-- Carries out one command. -/
def perform (table : Table K Y) (allows : Allocator) (command : Command K Y) :
    Outcome (Table K Y) (Reply K Y) :=
  match command with
  | .insert key yield =>
    let done := table.insert allows key yield
    ⟨.inserted done.answer, done.state, done.log⟩
  | .insertOwned key yield =>
    let done := table.insertOwned allows key yield
    ⟨.inserted done.answer, done.state, done.log⟩
  | .remove key yield =>
    let (count, table) := table.remove key yield
    ⟨.removed count, table, []⟩
  | .removeItem handle =>
    let (pair, table) := table.removeItem handle
    ⟨.handedBack pair, table, []⟩
  | .reset => ⟨.emptied, table.reset, []⟩
  | .rebuild request =>
    let done := table.rebuild allows request
    ⟨.rebuilt done.answer, done.state, done.log⟩
  | .updateYield handle change =>
    let (found, table) := table.updateYield handle change
    ⟨.updated found, table, []⟩

/-- Carries out commands one after another, each with its allocator. -/
def run (table : Table K Y) : List (Allocator × Command K Y) → Outcome (Table K Y) (List (Reply K Y))
  | [] => ⟨[], table, []⟩
  | (allows, command) :: rest =>
    let done := table.perform allows command
    let others := run done.state rest
    ⟨done.answer :: others.answer, others.state, done.log ++ others.log⟩

end Table

end ChainedMultimap
