import Mathlib.Logic.Function.Basic
import SnmpAgent.Lib.BigEndian
import SnmpAgent.Lib.Res

/-!
# Files and interrupted writes

A process works on a `Disk` in a `Session`, one operation after another, and may meet a `Fault`: an
operation that returns an error, or at which the process is killed. A rename is atomic. It is
durable when the directory is synced, and a fault before that may undo it.

`replaceFile` writes a file beside the old one and renames it over the old one. Whatever fault it
meets, it leaves the old contents or the new ones (`replaceFile_cases`).
-/

namespace Rust

/-! ## Errors -/

inductive ErrorKind where
  | notFound
  | invalidData
  | invalidInput
  | other
  deriving DecidableEq

structure IoError where
  kind : ErrorKind
  message : String
  deriving DecidableEq

/-- How an operation ends that is not carried through. -/
inductive Stop where
  | error (e : IoError)
  | killed
  deriving DecidableEq

/-! ## Operations -/

/-- The contents of the files that there are. -/
abbrev Disk (P : Type) := P → Option Bytes

/-- The operation that is not carried through, by the number of operations before it. It has an
effect as far as `progress` says, for a write in bytes. -/
structure Fault where
  after : Nat
  progress : Nat
  stop : Stop

structure Session (P : Type) where
  disk : Disk P
  /-- The entry that was replaced by a rename that is not durable yet. -/
  replaced : Option (P × Option Bytes)
  fault : Option Fault

inductive DiskOp (P : Type) where
  | create (path : P)
  | write (path : P) (data : Bytes)
  | syncAll (path : P)
  | rename (source target : P)
  | openDir
  | syncDir

section
variable {P : Type}

/-- A session from its start to its end. -/
def Session.within {α : Type} (x : Act (Session P) Stop α) (fault : Option Fault) :
    Act (Disk P) Stop α := fun disk =>
  match x.run ⟨disk, none, fault⟩ with
  | .ok (a, s) => .ok (a, s.disk)
  | .err (stop, s) => .err (stop, s.disk)
  | .panic => .panic

/-- `std::fs::read`. -/
def readFile (path : P) (disk : Disk P) : Except IoError Bytes :=
  match disk path with
  | some contents => .ok contents
  | none => .error ⟨.notFound, "entity not found"⟩

theorem run_within {α : Type} (x : Act (Session P) Stop α) (fault : Option Fault) (disk : Disk P) :
    (Session.within x fault).run disk =
      match x.run ⟨disk, none, fault⟩ with
      | .ok (a, s) => .ok (a, s.disk)
      | .err (stop, s) => .err (stop, s.disk)
      | .panic => .panic := by rfl

variable [DecidableEq P]

def DiskOp.effect : DiskOp P → Session P → Session P
  | create path, s => { s with disk := Function.update s.disk path (some []) }
  | write path data, s =>
    { s with disk := Function.update s.disk path (some ((s.disk path).getD [] ++ data)) }
  | rename source target, s =>
    { s with
      disk := Function.update (Function.update s.disk source none) target (s.disk source)
      replaced := some (target, s.disk target) }
  | syncDir, s => { s with replaced := none }
  | syncAll _, s => s
  | openDir, s => s

/-- A rename that is not durable is lost. -/
def Session.lose (s : Session P) : Session P :=
  match s.replaced with
  | some (path, contents) =>
    { s with disk := Function.update s.disk path contents, replaced := none }
  | none => s

/-- What an operation leaves that is not carried through. -/
def DiskOp.cut (progress : Nat) : DiskOp P → Session P → Session P
  | write path data, s => (write path (data.take progress)).effect s
  | op, s => if progress = 0 then s.lose else op.effect s

def perform (op : DiskOp P) : Act (Session P) Stop Unit := fun s =>
  match s.fault with
  | none => .ok ((), op.effect s)
  | some ⟨0, progress, stop⟩ => .err (stop, op.cut progress s)
  | some ⟨after + 1, progress, stop⟩ =>
    .ok ((), op.effect { s with fault := some ⟨after, progress, stop⟩ })

/-! ## Replacing a file -/

/-- The contents are made up after the temporary file was created. -/
def replaceFile (tmp path : P) (data : Res Stop Bytes) : Act (Session P) Stop Unit := do
  perform (.create tmp)
  let data ← .lift data
  perform (.write tmp data)
  perform (.syncAll tmp)
  perform (.rename tmp path)
  perform .openDir
  perform .syncDir

section
variable (disk : Disk P) (replaced : Option (P × Option Bytes)) (op : DiskOp P)

theorem run_perform_none :
    (perform op).run ⟨disk, replaced, none⟩ = .ok ((), op.effect ⟨disk, replaced, none⟩) := by rfl

theorem run_perform_succ (after progress : Nat) (stop : Stop) :
    (perform op).run ⟨disk, replaced, some ⟨after + 1, progress, stop⟩⟩ =
      .ok ((), op.effect ⟨disk, replaced, some ⟨after, progress, stop⟩⟩) := by rfl

end

/-- A file holds the old contents, the new ones, or, if it is its own temporary file, a part of the
new ones. -/
def Replaced (tmp path : P) (data : Bytes) (old new : Option Bytes) : Prop :=
  new = old ∨ new = some data ∨ tmp = path ∧ ∃ n < data.length, new = some (data.take n)

variable (tmp path : P) (data : Bytes) (disk : Disk P)

/-- The temporary file in the making. -/
theorem replaced_take (n : Nat) :
    Replaced tmp path data (disk path) (Function.update disk tmp (some (data.take n)) path) := by
  by_cases h : path = tmp
  · rw [h, Function.update_self]
    by_cases hn : n < data.length
    · exact .inr (.inr ⟨rfl, n, hn, rfl⟩)
    · exact .inr (.inl (by rw [List.take_of_length_le (by omega)]))
  · exact .inl (Function.update_of_ne h _ _)

theorem replaced_all :
    Replaced tmp path data (disk path) (Function.update disk tmp (some data) path) := by
  simpa using replaced_take tmp path data disk data.length

/-- An operation behind the write leaves the temporary file written or the new contents in place. -/
theorem replaced_ite {s s' : Session P} {progress : Nat}
    (h : s.disk path = Function.update disk tmp (some data) path) (h' : s'.disk path = some data) :
    Replaced tmp path data (disk path) ((if progress = 0 then s else s').disk path) := by
  split
  · exact h ▸ replaced_all tmp path data disk
  · exact .inr (.inl h')

theorem replaceFile_none : ∃ disk',
    (Session.within (replaceFile tmp path (.ok data)) none).run disk = .ok ((), disk') ∧
      disk' path = some data := by
  rw [run_within]
  simp [replaceFile, run_perform_none, DiskOp.effect]

/-- **Replacing a file** is all or nothing, and it is all if it succeeds. -/
theorem replaceFile_cases (fault : Option Fault) :
    (∃ disk', (Session.within (replaceFile tmp path (.ok data)) fault).run disk = .ok ((), disk') ∧
      disk' path = some data) ∨
    ∃ stop disk', (Session.within (replaceFile tmp path (.ok data)) fault).run disk =
      .err (stop, disk') ∧ Replaced tmp path data (disk path) (disk' path) := by
  rcases fault with _ | ⟨after, progress, stop⟩
  · exact .inl (replaceFile_none tmp path data disk)
  rw [run_within]
  -- By the number of operations that are carried through.
  rcases after with _ | _ | _ | _ | _ | _ | after
  · right
    refine ⟨stop, _, rfl, ?_⟩
    simp only [DiskOp.cut, Session.lose, DiskOp.effect]
    split
    · exact .inl rfl
    · exact replaced_take tmp path data disk 0
  · right
    refine ⟨stop, _, rfl, ?_⟩
    simpa [DiskOp.cut, DiskOp.effect] using replaced_take tmp path data disk progress
  · right
    refine ⟨stop, _, rfl, ?_⟩
    simpa [DiskOp.cut, Session.lose, DiskOp.effect] using replaced_all tmp path data disk
  · right
    refine ⟨stop, _, rfl, ?_⟩
    exact replaced_ite tmp path data disk (by simp [Session.lose, DiskOp.effect])
      (by simp [DiskOp.effect])
  · right
    refine ⟨stop, _, rfl, ?_⟩
    exact replaced_ite tmp path data disk (by simp [Session.lose, DiskOp.effect])
      (by simp [DiskOp.effect])
  · right
    refine ⟨stop, _, rfl, ?_⟩
    exact replaced_ite tmp path data disk (by simp [Session.lose, DiskOp.effect])
      (by simp [DiskOp.effect])
  · left
    simp [replaceFile, run_perform_succ, DiskOp.effect]

end

end Rust
