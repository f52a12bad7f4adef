import Mes.Transact.Prog

/-!
A relational store under READ COMMITTED, at the granularity of one statement.
Each row keeps its last committed version and, while a transaction has written
or locked it, that transaction's own version. A statement that needs a row
locked by somebody else has no step, so its program waits. An `UPDATE` or a
`SELECT ... FOR UPDATE` reads a snapshot first and then `touch`es each row it
found: the row is locked, its predicate is checked again on the latest
version, and only then it is changed.

A unique index waits for a row whose fate is undecided and refuses a row that
clashes with every possible outcome. A refused statement leaves its transaction
aborted: later statements fail, and a commit then acts as a rollback and says
so in its answer. Time zero is an arbitrary origin; the clock is in
milliseconds, and `now()` is the start of the transaction.

Left out: deadlock detection (deadlocked programs wait for ever), failures of the
connection, and the size of the connection pool: a statement never waits for a
client. `Transact.Waiting` counts the clients in use and says who lacks one. Deletes
and updates never change the columns of a unique index; `Change` asks for a proof of
that.
-/

namespace Transact

abbrev Pid := Nat

abbrev Time := Nat

/-- The tables of a store. `clash` says that two rows of a table cannot both
be there, `refs` lists the rows a row refers to, and `admits` is what the
column types accept. -/
structure Schema where
  Tbl : Type
  [decTbl : DecidableEq Tbl]
  Row : Tbl → Type
  clash : (t : Tbl) → Row t → Row t → Bool
  clash_symm : ∀ t a b, clash t a b = clash t b a
  refs : (t : Tbl) → Row t → List (Tbl × Nat)
  admits : (t : Tbl) → Row t → Bool

attribute [instance] Schema.decTbl

/-- A row's last committed version, and the transaction that holds its lock
with the version that transaction would commit. -/
structure Cell (ρ : Type) where
  stored : Option ρ := none
  lock : Option (Pid × Option ρ) := none

namespace Cell

variable {ρ : Type}

/-- The version that `p` would commit, when `p` holds the lock. -/
def draft (c : Cell ρ) (p : Pid) : Option (Option ρ) :=
  match c.lock with
  | none => none
  | some (q, r) => if q = p then some r else none

/-- What a statement of `p` sees: its own version, else the committed one. -/
def view (c : Cell ρ) (p : Pid) : Option ρ :=
  (c.draft p).getD c.stored

def lockedAgainst (c : Cell ρ) (p : Pid) : Bool :=
  match c.lock with
  | none => false
  | some (q, _) => decide (q ≠ p)

/-- The row when `p` ends its transaction. -/
def settle (c : Cell ρ) (p : Pid) (keep : Bool) : Cell ρ :=
  match c.draft p with
  | none => c
  | some r => { stored := if keep then r else c.stored, lock := none }

/-- The row once every open transaction has ended as `d` decides. -/
def fate (c : Cell ρ) (d : Pid → Bool) : Option ρ :=
  match c.lock with
  | none => c.stored
  | some (q, r) => if d q then r else c.stored

/-- Every outcome that `p` has to expect satisfies `bad`. -/
def always (c : Cell ρ) (p : Pid) (bad : ρ → Bool) : Bool :=
  match c.lock with
  | none => c.stored.any bad
  | some (q, r) => if q = p then r.any bad else c.stored.any bad && r.any bad

/-- Some outcome that `p` has to expect satisfies `bad`. -/
def maybe (c : Cell ρ) (p : Pid) (bad : ρ → Bool) : Bool :=
  match c.lock with
  | none => c.stored.any bad
  | some (q, r) => if q = p then r.any bad else c.stored.any bad || r.any bad

end Cell

/-- `born` remembers, for every row that a program inserted, who did and as what.
It is a record for proofs; no statement reads it. -/
structure Table (ρ : Type) where
  next : Nat := 0
  cell : Nat → Cell ρ := fun _ => {}
  born : Nat → Option (Pid × ρ) := fun _ => none

structure Tx where
  startedAt : Time
  aborted : Bool

structure Store (σ : Schema) where
  clock : Time
  table : (t : σ.Tbl) → Table (σ.Row t)
  tx : Pid → Option Tx

/-- The uncommitted versions of one program. -/
abbrev Drafts (σ : Schema) := (t : σ.Tbl) → Nat → Option (Option (σ.Row t))

/-- A change of a row, `none` for its deletion. -/
structure Change (σ : Schema) (t : σ.Tbl) where
  apply : σ.Row t → Option (σ.Row t)
  keeps : ∀ r r', apply r = some r' → ∀ s, σ.clash t r' s = σ.clash t r s

/-- The rows that one statement sees. -/
structure Snapshot (σ : Schema) where
  now : Time
  next : σ.Tbl → Nat
  get : (t : σ.Tbl) → Nat → Option (σ.Row t)

/-- The visible rows of a table with their ids, in the order of insertion. -/
def Snapshot.rows {σ : Schema} (s : Snapshot σ) (t : σ.Tbl) :
    List (Nat × σ.Row t) :=
  (List.range (s.next t)).filterMap fun id => (s.get t id).map fun r => (id, r)

/-- A statement runs on the connection of its program's open transaction, or
on a connection of its own from the pool. -/
inductive Conn where
  | manager
  | pool

inductive SqlError where
  | uniqueViolation
  | foreignKeyViolation
  | dataException
  | inFailedTransaction
  deriving DecidableEq, Repr

inductive Stmt (σ : Schema) where
  | begin : Stmt σ
  | commit : Stmt σ
  | rollback : Stmt σ
  | read (conn : Conn) : Stmt σ
  | touch (t : σ.Tbl) (id : Nat) (where_ : Time → σ.Row t → Bool)
      (set : Time → Change σ t) : Stmt σ
  | insert (t : σ.Tbl) (row : Time → σ.Row t) : Stmt σ

/-- `commit` answers whether the transaction was kept; `touch` answers the
version it found, before the change. -/
@[reducible] def Stmt.Res {σ : Schema} : Stmt σ → Type
  | .begin => Unit
  | .commit => Bool
  | .rollback => Unit
  | .read _ => Except SqlError (Snapshot σ)
  | .touch t _ _ _ => Except SqlError (Option (σ.Row t))
  | .insert t _ => Except SqlError (Nat × σ.Row t)

namespace Store

variable {σ : Schema}

def stored (s : Store σ) (t : σ.Tbl) (id : Nat) : Option (σ.Row t) :=
  ((s.table t).cell id).stored

def draft (s : Store σ) (p : Pid) : Drafts σ :=
  fun t id => ((s.table t).cell id).draft p

def born (s : Store σ) (t : σ.Tbl) (id : Nat) : Option (Pid × σ.Row t) :=
  (s.table t).born id

def next (s : Store σ) (t : σ.Tbl) : Nat :=
  (s.table t).next

def setCell (s : Store σ) (t : σ.Tbl) (id : Nat) (c : Cell (σ.Row t)) : Store σ :=
  { s with
    table := Function.update s.table t
      { s.table t with cell := Function.update (s.table t).cell id c } }

/-- Lock a row for `p`, with the version that `p` would commit. -/
def hold (s : Store σ) (p : Pid) (t : σ.Tbl) (id : Nat) (r : Option (σ.Row t)) :
    Store σ :=
  s.setCell t id { stored := s.stored t id, lock := some (p, r) }

/-- A new row, seen only by `p` until it commits. -/
def push (s : Store σ) (p : Pid) (t : σ.Tbl) (r : σ.Row t) : Store σ :=
  { s with
    table := Function.update s.table t
      { next := (s.table t).next + 1
        cell := Function.update (s.table t).cell (s.table t).next
          { stored := none, lock := some (p, some r) }
        born := Function.update (s.table t).born (s.table t).next (some (p, r)) } }

def setTx (s : Store σ) (p : Pid) (x : Option Tx) : Store σ :=
  { s with tx := Function.update s.tx p x }

/-- End the transaction of `p` and release its locks. -/
def finish (s : Store σ) (p : Pid) (keep : Bool) : Store σ :=
  { s with
    table := fun t =>
      { s.table t with cell := fun id => ((s.table t).cell id).settle p keep }
    tx := Function.update s.tx p none }

/-- Every visible row: the committed rows, or what `p`'s transaction sees. -/
def snapshot (s : Store σ) (now : Time) (get : (t : σ.Tbl) → Nat → Option (σ.Row t)) :
    Snapshot σ :=
  { now := now, next := s.next, get := get }

/-- Whether some existing row satisfies `test`. -/
def anyCell (s : Store σ) (t : σ.Tbl) (test : Cell (σ.Row t) → Bool) : Bool :=
  (List.range (s.next t)).any fun id => test ((s.table t).cell id)

def refsVisible (s : Store σ) (p : Pid) (t : σ.Tbl) (r : σ.Row t) : Bool :=
  (σ.refs t r).all fun ref => (((s.table ref.1).cell ref.2).view p).isSome

def execRead (s : Store σ) (p : Pid) :
    Conn → Option (Except SqlError (Snapshot σ) × Store σ)
  | .pool => some (.ok (s.snapshot s.clock s.stored), s)
  | .manager =>
      match s.tx p with
      | none => none
      | some x =>
          if x.aborted then some (.error .inFailedTransaction, s)
          else some (.ok (s.snapshot x.startedAt fun t id =>
            ((s.table t).cell id).view p), s)

def execTouch (s : Store σ) (p : Pid) (t : σ.Tbl) (id : Nat)
    (where_ : Time → σ.Row t → Bool) (set : Time → Change σ t) :
    Option (Except SqlError (Option (σ.Row t)) × Store σ) :=
  match s.tx p with
  | none => none
  | some x =>
      if x.aborted then some (.error .inFailedTransaction, s)
      else if ((s.table t).cell id).lockedAgainst p then none
      else
        match ((s.table t).cell id).view p with
        | none => some (.ok none, s)
        | some r =>
            if where_ x.startedAt r then
              some (.ok (some r), s.hold p t id ((set x.startedAt).apply r))
            else some (.ok none, s)

/-- The column types are checked first, then the unique index, then the
foreign keys. -/
def execInsert (s : Store σ) (p : Pid) (t : σ.Tbl) (row : Time → σ.Row t) :
    Option (Except SqlError (Nat × σ.Row t) × Store σ) :=
  match s.tx p with
  | none => none
  | some x =>
      let r := row x.startedAt
      let refused := s.setTx p (some { x with aborted := true })
      if x.aborted then some (.error .inFailedTransaction, s)
      else if σ.admits t r = false then some (.error .dataException, refused)
      else if s.anyCell t fun c => c.always p (σ.clash t r) then
        some (.error .uniqueViolation, refused)
      else if s.anyCell t fun c => c.maybe p (σ.clash t r) then none
      else if s.refsVisible p t r = false then
        some (.error .foreignKeyViolation, refused)
      else some (.ok (s.next t, r), s.push p t r)

/-- One statement of `p`. It has no step while it waits for a lock. -/
def exec (s : Store σ) (p : Pid) : (stmt : Stmt σ) → Option (stmt.Res × Store σ)
  | .begin =>
      match s.tx p with
      | none => some ((), s.setTx p (some { startedAt := s.clock, aborted := false }))
      | some _ => none
  | .commit =>
      match s.tx p with
      | none => none
      | some x => some (!x.aborted, s.finish p (!x.aborted))
  | .rollback =>
      match s.tx p with
      | none => none
      | some _ => some ((), s.finish p false)
  | .read conn => s.execRead p conn
  | .touch t id where_ set => s.execTouch p t id where_ set
  | .insert t row => s.execInsert p t row

def tick (s : Store σ) (n : Time) : Store σ :=
  { s with clock := s.clock + n }

end Store

end Transact
