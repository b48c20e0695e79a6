import TypeScope.Ingest

/-! Updates that wait until their scope is asked for. The jobs of all scopes stand in one line, in
the order they came; those of one uri are taken out together. -/
namespace TypeScope

structure QueueSettings where
  workers : Nat
  threadName : String
  deriving DecidableEq, Repr

namespace QueueSettings

def standard : QueueSettings := ⟨1, "typedom-update"⟩

def inline : QueueSettings := { standard with workers := 0 }

end QueueSettings

inductive Update where
  | ingest (unit : CompilationUnit)
  | remove (file : FileId)
  deriving Repr

namespace Update

def file : Update → FileId
  | ingest unit => unit.file
  | remove file => file

def applyTo (id : ScopeId) : Update → Query Report
  | ingest unit => Query.ingest id unit
  | remove file => Query.removeFile id file

end Update

structure Pending where
  scope : ScopeId
  update : Update
  deriving Repr

namespace Pending

def isFor (w : Workspace) (uri : String) (p : Pending) : Bool := w.uri p.scope == uri

def apply (w : Workspace) (p : Pending) : Workspace := ((p.update.applyTo p.scope).run w).2

def applyAll (w : Workspace) (jobs : List Pending) : Workspace := jobs.foldl apply w

end Pending

structure UpdateQueue where
  workers : Nat
  pending : List Pending
  deriving Repr

namespace UpdateQueue

def start (settings : QueueSettings) : UpdateQueue := ⟨settings.workers, []⟩

def enqueue (q : UpdateQueue) (id : ScopeId) (update : Update) : UpdateQueue :=
  { q with pending := q.pending ++ [⟨id, update⟩] }

def jobsFor (q : UpdateQueue) (w : Workspace) (uri : String) : List Pending :=
  q.pending.filter (Pending.isFor w uri)

def discard (q : UpdateQueue) (w : Workspace) (uri : String) : UpdateQueue :=
  { q with pending := q.pending.filter (fun p => !p.isFor w uri) }

theorem jobsForDiscard (q : UpdateQueue) (w : Workspace) (uri other : String) :
    (q.discard w uri).jobsFor w other = if other = uri then [] else q.jobsFor w other := by
  simp only [discard, jobsFor, List.filter_filter]
  by_cases same : other = uri
  · rw [if_pos same, List.filter_eq_nil_iff]
    intro p _
    simp [same]
  · rw [if_neg same]
    refine List.filter_congr fun p _ => ?_
    by_cases mine : w.uri p.scope = other <;> simp [Pending.isFor, mine, same]

def force (q : UpdateQueue) (w : Workspace) (uri : String) : UpdateQueue × Workspace :=
  (q.discard w uri, Pending.applyAll w (q.jobsFor w uri))

def drain : Nat → UpdateQueue → Workspace → UpdateQueue × Workspace
  | 0, q, w => (q, w)
  | rounds + 1, q, w =>
      match q.pending with
      | [] => (q, w)
      | oldest :: _ =>
          let (q, w) := q.force w (w.uri oldest.scope)
          drain rounds q w

def waitIdle (q : UpdateQueue) (w : Workspace) : UpdateQueue × Workspace :=
  drain q.pending.length q w

theorem forceShorter {q : UpdateQueue} {w : Workspace} {oldest : Pending} {rest : List Pending}
    (h : q.pending = oldest :: rest) :
    (q.force w (w.uri oldest.scope)).1.pending.length ≤ rest.length := by
  simp only [force, discard, h, List.filter_cons]
  simp [Pending.isFor, List.length_filter_le]

theorem drainIdle {rounds : Nat} {q : UpdateQueue} {w : Workspace}
    (enough : q.pending.length ≤ rounds) : (drain rounds q w).1.pending = [] := by
  induction rounds generalizing q w with
  | zero => simpa [drain] using enough
  | succ rounds ih =>
    unfold drain
    split
    · assumption
    · rename_i oldest rest first
      refine ih (Nat.le_trans (forceShorter first) ?_)
      simpa [first] using enough

theorem waitIdleIdle (q : UpdateQueue) (w : Workspace) : (q.waitIdle w).1.pending = [] :=
  drainIdle (Nat.le_refl _)

def debug (q : UpdateQueue) : String :=
  "UpdateQueue \x7b workers: " ++ q.workers.repr ++ ", pending: " ++ q.pending.length.repr ++
    " \x7d"

end UpdateQueue
end TypeScope
