import Mes.Transact.Frame

/-!
Programs beside one another. A world holds the store, the memory of the server
process and one program for each request received so far. The scheduler takes
one step at a time: it starts a request, runs one operation of one program,
lets time pass, or lets a timer expire. What the environment is free to decide
(a random string, whether a queue is reachable) is a choice of the scheduler.

`history` records each operation with its answer. Like the record of insertions
it is written for proofs and read by no program.
-/

namespace Transact

/-- The server process: its memory, the operations on it, and its requests.
`fail` is the error that a refused statement raises. -/
structure Platform where
  Mem : Type
  Op : Type
  Res : Op → Type
  Choice : Type
  exec : Pid → Time → (op : Op) → Choice → Mem → Option (Res op × Mem)
  Timer : Type
  fire : Time → Timer → Mem → Option Mem
  Req : Type
  Err : Type
  Ans : Type
  fail : SqlError → Err

/-- `fork` starts a request nobody waits for. -/
inductive Call (σ : Schema) (P : Platform) where
  | sql (stmt : Stmt σ) : Call σ P
  | node (op : P.Op) : Call σ P
  | fork (req : P.Req) : Call σ P

@[reducible] def Call.Res {σ : Schema} {P : Platform} : Call σ P → Type
  | .sql stmt => stmt.Res
  | .node op => P.Res op
  | .fork _ => Unit

/-- Programs of a platform over a store. -/
abbrev sig (σ : Schema) (P : Platform) : Signature where
  Op := Call σ P
  Res := Call.Res

abbrev Code (σ : Schema) (P : Platform) (α : Type) := Prog (sig σ P) P.Err α

/-- An operation with its answer. -/
abbrev Event (σ : Schema) (P : Platform) := (c : Call σ P) × c.Res

structure View (σ : Schema) (P : Platform) where
  store : Store σ
  mem : P.Mem
  history : List (Pid × Event σ P)

structure Proc (σ : Schema) (P : Platform) where
  req : P.Req
  prog : Code σ P P.Ans

structure World (σ : Schema) (P : Platform) where
  view : View σ P
  procs : List (Proc σ P)

inductive Action (P : Platform) where
  | spawn (req : P.Req) : Action P
  | run (p : Pid) (choice : P.Choice) : Action P
  | tick (n : Time) : Action P
  | fire (timer : P.Timer) : Action P

/-- The program that takes the step. -/
def Action.actor {P : Platform} : Action P → Option Pid
  | .run p _ => some p
  | _ => none

variable {σ : Schema} {P : Platform}

/-- One operation of `p`. -/
def View.exec (v : View σ P) (p : Pid) (choice : P.Choice) :
    (c : Call σ P) → Option (c.Res × View σ P)
  | .sql stmt => (v.store.exec p stmt).map fun out =>
      (out.1, { v with
        store := out.2, history := (p, ⟨.sql stmt, out.1⟩) :: v.history })
  | .node op => (P.exec p v.store.clock op choice v.mem).map fun out =>
      (out.1, { v with
        mem := out.2, history := (p, ⟨.node op, out.1⟩) :: v.history })
  | .fork req =>
      some ((), { v with history := (p, ⟨.fork req, ()⟩) :: v.history })

/-- The programs that an operation starts. -/
def Call.forked (body : P.Req → Code σ P P.Ans) : Call σ P → List (Proc σ P)
  | .fork req => [{ req := req, prog := body req }]
  | _ => []

namespace World

variable (body : P.Req → Code σ P P.Ans)

def spawn (w : World σ P) (req : P.Req) : World σ P :=
  { w with procs := w.procs ++ [{ req := req, prog := body req }] }

/-- Several requests have just arrived. -/
def call (w : World σ P) (reqs : List P.Req) : World σ P :=
  { w with procs := w.procs ++ reqs.map fun req => { req := req, prog := body req } }

def runProc (w : World σ P) (p : Pid) (choice : P.Choice) : Option (World σ P) :=
  match w.procs[p]? with
  | some { req := req, prog := .step c k } =>
      (w.view.exec p choice c).map fun out =>
        { view := out.2
          procs := w.procs.set p { req := req, prog := k out.1 } ++
            Call.forked body c }
  | _ => none

def step (w : World σ P) : Action P → Option (World σ P)
  | .spawn req => some (w.spawn body req)
  | .run p choice => w.runProc body p choice
  | .tick n => some { w with view := { w.view with store := w.view.store.tick n } }
  | .fire timer => (P.fire w.view.store.clock timer w.view.mem).map fun mem =>
      { w with view := { w.view with mem := mem } }

/-- Follow a schedule. -/
def run (w : World σ P) : List (Action P) → Option (World σ P)
  | [] => some w
  | a :: rest => (w.step body a).bind fun w' => w'.run rest

/-- The request of `p` has ended with this outcome. -/
def Ended (w : World σ P) (p : Pid) (req : P.Req) (out : Except P.Err P.Ans) : Prop :=
  ∃ proc, w.procs[p]? = some proc ∧ proc.req = req ∧ proc.prog.outcome = some out

/-- The request of `p` and how it has ended, if it has. -/
def status (w : World σ P) (p : Pid) : Option (P.Req × Option (Except P.Err P.Ans)) :=
  w.procs[p]?.map fun proc => (proc.req, proc.prog.outcome)

theorem ended_of_status {w : World σ P} {p : Pid} {req : P.Req}
    {out : Except P.Err P.Ans} (hstatus : w.status p = some (req, some out)) :
    w.Ended p req out := by
  obtain ⟨proc, hproc, hpair⟩ := Option.map_eq_some_iff.mp hstatus
  obtain ⟨hreq, hout⟩ := Prod.mk.inj hpair
  exact ⟨proc, hproc, hreq, hout⟩

/-- A step keeps every request, and a program that has ended as it is. -/
theorem step_kept {w w' : World σ P} {a : Action P} (hstep : w.step body a = some w') {p : Pid}
    {proc : Proc σ P} (hproc : w.procs[p]? = some proc) :
    ∃ proc', w'.procs[p]? = some proc' ∧ proc'.req = proc.req ∧
      ∀ out, proc.prog.outcome = some out → proc'.prog.outcome = some out := by
  have hlt := (List.getElem?_eq_some_iff.mp hproc).1
  cases a with
  | spawn req =>
      rw [← Option.some.inj hstep]
      exact ⟨proc, (List.getElem?_append_left hlt).trans hproc, rfl, fun _ hout => hout⟩
  | run q choice =>
      unfold step runProc at hstep
      dsimp only at hstep
      split at hstep
      · rename_i req c k hq
        obtain ⟨out, -, rfl⟩ := Option.map_eq_some_iff.mp hstep
        have hlen : p < (w.procs.set q { req := req, prog := k out.1 }).length := by
          rw [List.length_set]
          exact hlt
        by_cases hsame : q = p
        · subst hsame
          rw [hproc] at hq
          obtain rfl := Option.some.inj hq
          refine ⟨{ req := req, prog := k out.1 }, ?_, rfl, ?_⟩
          · rw [List.getElem?_append_left hlen, List.getElem?_set_self hlt]
          · -- a program with an operation to run has not ended
            intro out' hout
            cases hout
        · refine ⟨proc, ?_, rfl, fun _ hout => hout⟩
          rw [List.getElem?_append_left hlen, List.getElem?_set_ne hsame]
          exact hproc
      · cases hstep
  | tick n =>
      rw [← Option.some.inj hstep]
      exact ⟨proc, hproc, rfl, fun _ hout => hout⟩
  | fire timer =>
      obtain ⟨mem, -, rfl⟩ := Option.map_eq_some_iff.mp hstep
      exact ⟨proc, hproc, rfl, fun _ hout => hout⟩

/-- A request that has ended stays as it is. -/
theorem step_ended {w w' : World σ P} {a : Action P} (hstep : w.step body a = some w') {p : Pid}
    {req : P.Req} {out : Except P.Err P.Ans} (hended : w.Ended p req out) :
    w'.Ended p req out := by
  obtain ⟨proc, hproc, hreq, hout⟩ := hended
  obtain ⟨proc', hproc', hreq', hkept⟩ := step_kept body hstep hproc
  exact ⟨proc', hproc', hreq'.trans hreq, hkept out hout⟩

end World

/-- Which schedules are considered: the requests that may arrive, and a
condition on each operation that is run. -/
structure Scope (σ : Schema) (P : Platform) where
  spawn : P.Req → Prop
  run : View σ P → Pid → View σ P → Prop

/-- Any interleaving of the requests that satisfy `spawn`. -/
def Scope.any (spawn : P.Req → Prop) : Scope σ P where
  spawn := spawn
  run := fun _ _ _ => True

/-- Only these programs run, and no request arrives. -/
def Scope.only (who : Pid → Prop) : Scope σ P where
  spawn := fun _ => False
  run := fun _ p _ => who p

def Scope.admits (sc : Scope σ P) (a : Action P) (w w' : World σ P) : Prop :=
  match a with
  | .spawn req => sc.spawn req
  | .run p _ => sc.run w.view p w'.view
  | .tick _ => True
  | .fire _ => True

/-- One step of the scheduler. -/
def Moves (body : P.Req → Code σ P P.Ans) (sc : Scope σ P) (w w' : World σ P) : Prop :=
  ∃ a, w.step body a = some w' ∧ sc.admits a w w'

/-- Some schedule leads from one world to another. -/
def Reach (body : P.Req → Code σ P P.Ans) (sc : Scope σ P) :
    World σ P → World σ P → Prop :=
  Relation.ReflTransGen (Moves body sc)

/-- Requests arrive one after the other. -/
theorem World.call_reach {body : P.Req → Code σ P P.Ans} {sc : Scope σ P}
    (w : World σ P) (reqs : List P.Req) (hspawn : ∀ req ∈ reqs, sc.spawn req) :
    Reach body sc w (w.call body reqs) := by
  induction reqs generalizing w with
  | nil =>
      have hsame : w.call body [] = w := by simp [World.call]
      rw [hsame]
      exact Relation.ReflTransGen.refl
  | cons req rest ih =>
      have hcall : (w.spawn body req).call body rest = w.call body (req :: rest) := by
        simp [World.call, World.spawn]
      have hfirst : Moves body sc w (w.spawn body req) :=
        ⟨.spawn req, rfl, hspawn req List.mem_cons_self⟩
      have hrest := ih (w.spawn body req) fun r hr => hspawn r (List.mem_cons_of_mem req hr)
      rw [hcall] at hrest
      exact Relation.ReflTransGen.head hfirst hrest

/-- Following a schedule that the scope allows reaches its last world. -/
theorem World.reach_of_run {body : P.Req → Code σ P P.Ans} {sc : Scope σ P}
    {schedule : List (Action P)}
    (hscope : ∀ a ∈ schedule, ∀ w w', sc.admits a w w') {w w' : World σ P}
    (hrun : w.run body schedule = some w') : Reach body sc w w' := by
  induction schedule generalizing w with
  | nil =>
      rw [← Option.some.inj hrun]
      exact Relation.ReflTransGen.refl
  | cons a rest ih =>
      obtain ⟨mid, hstep, hrest⟩ := Option.bind_eq_some_iff.mp hrun
      have hlater := ih (fun b hb => hscope b (List.mem_cons_of_mem a hb)) hrest
      exact Relation.ReflTransGen.head ⟨a, hstep, hscope a List.mem_cons_self w mid⟩ hlater

end Transact
