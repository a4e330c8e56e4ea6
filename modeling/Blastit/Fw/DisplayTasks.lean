import Blastit.Fw.Slink
import Blastit.Fw.Display
import Blastit.Lib.Calls

/-!
`display.c`: the task engine, `display_init` and `display_update` on the linked list in
memory.

The tasks' own code is a parameter: a routine may do anything to the memory and return
anything. A call through a pointer at which no routine of the right kind stands does not
return.
-/

namespace Blastit.Fw.DisplayTasks

open Blastit.Lib.Links Blastit.Lib.Calls Blastit.Fw.Display Blastit.Fw.Slink

/-- The code of a task. -/
inductive Routine
  | init (t : Task)
  | update (t : Task)
  deriving DecidableEq, Repr

/-- Where things are: the nine task objects, the parameter `y` in the call of
`display_slink_add` for each of them, and the routines. -/
structure Image where
  addr : Task → Ptr
  slot : Task → Ptr
  code : BitVec 32 → Option Routine
  runInit : Task → Ptr → Mem → Mem
  runUpdate : Task → Ptr → Mem → Mem × Bool
  /-- A parameter does not share its address with a static object. -/
  slot_ne_addr : ∀ t u, slot t ≠ addr u
  addr_ne_zero : ∀ t, addr t ≠ 0

/-- A call the engine has made: the routine, its argument and what it returned. -/
inductive Call
  | init (t : Task) (td : Ptr)
  | update (t : Task) (td : Ptr) (done : Bool)
  deriving DecidableEq, Repr

/-- Why a call of the engine does not return. -/
inductive Stop
  | fuel
  | badCall
  deriving DecidableEq, Repr

structure State where
  mem : Mem
  displayTasksStart : Ptr
  log : List Call

variable (I : Image)

/-- `cur = display_slink_add(&cur, ...)` for one task. -/
def addTask (fuel : ℕ) (c : Ptr × Mem) (t : Task) : Except Stop (Ptr × Mem) :=
  match displaySlinkAdd (I.slot t) fuel c.2 c.1 (I.addr t) with
  | none => .error .fuel
  | some (r, _, m) => .ok (r, m)

/-- The loop of `display_init`. -/
def initTasks : ℕ → State → Ptr → Except Stop State
  | 0, _, _ => .error .fuel
  | k + 1, s, cur =>
    if cur = 0 then .ok s
    else
      match I.code (s.mem cur).init with
      | some (.init t) =>
        let m := I.runInit t cur s.mem
        initTasks k { s with mem := m, log := s.log ++ [.init t cur] } (displaySlinkNext m cur)
      | _ => .error .badCall

/-- The part of `display_init` that adds the tasks. -/
def addTasks (fuel : ℕ) (s : State) : Except Stop State :=
  match displaySlinkAdd (I.slot .daylight) fuel s.mem s.displayTasksStart (I.addr .daylight) with
  | none => .error .fuel
  | some (cur, start, m) => do
    let c ← tasks.tail.foldlM (addTask I fuel) (cur, m)
    return { s with mem := c.2, displayTasksStart := start }

def displayInit (fuel : ℕ) (s : State) : Except Stop State := do
  let s ← addTasks I fuel s
  initTasks I fuel s s.displayTasksStart

/-- The loop of `display_update`. -/
def updateTasks : ℕ → State → Ptr → Except Stop State
  | 0, _, _ => .error .fuel
  | k + 1, s, cur =>
    if cur = 0 then .ok s
    else
      match I.code (s.mem cur).update with
      | some (.update t) =>
        let (m, done) := I.runUpdate t cur s.mem
        let m := Function.update m cur { m cur with done := if done then 1 else 0 }
        updateTasks k { s with mem := m, log := s.log ++ [.update t cur done] }
          (displaySlinkNext m cur)
      | _ => .error .badCall

def displayUpdate (fuel : ℕ) (s : State) : Except Stop State := do
  let s ← updateTasks I fuel s s.displayTasksStart
  match displaySlinkCompact fuel s.mem s.displayTasksStart with
  | none => .error .fuel
  | some (start, m) => return { s with mem := m, displayTasksStart := start }

def atStart (m : Mem) : State := ⟨m, 0, []⟩

/-! ### What the engine is for -/

/-- The list holds the tasks `ts`, in this order. -/
def ListsTasks (s : State) (ts : List Task) : Prop :=
  Lists s.mem s.displayTasksStart (ts.map I.addr)

/-- The next `n` frames return; each calls the update routine of every task in the list
once, in list order, and removes those that returned `true`. -/
def RunsFrames : ℕ → State → List Task → Prop
  | 0, s, ts => ListsTasks I s ts
  | n + 1, s, ts => ListsTasks I s ts ∧
    ∃ (fuel : ℕ) (s' : State) (done : Task → Bool), displayUpdate I fuel s = .ok s' ∧
      s'.log = s.log ++ ts.map (fun t => .update t (I.addr t) (done t)) ∧
      RunsFrames n s' (ts.filter fun t => !done t)

/-- `display_init` has listed the nine tasks and run their init routines once each. -/
def Initialized (s : State) : Prop :=
  ListsTasks I s tasks ∧ s.log = tasks.map fun t => .init t (I.addr t)

/-- The engine initialises every task, and runs every task once a frame. -/
def RunsTasks (m : Mem) : Prop :=
  ∃ (fuel : ℕ) (s : State), displayInit I fuel (atStart m) = .ok s ∧
    Initialized I s ∧ ∀ n, RunsFrames I n s tasks

/-! ### What it does -/

section
variable {I} {fuel : ℕ} {s s' : State}

def NoTask (I : Image) (p : Ptr) : Prop := ∀ t, p ≠ I.addr t

/-- No link leads to a task. -/
def Unlinked (I : Image) (m : Mem) : Prop := ∀ p, NoTask I (m p).next

lemma noTask_zero : NoTask I 0 := fun t => (I.addr_ne_zero t).symm

lemma noTask_slot (t : Task) : NoTask I (I.slot t) := I.slot_ne_addr t

/-- The first call puts its stack slot into the list. -/
lemma start_of_addTasks {m : Mem} (h : addTasks I fuel (atStart m) = .ok s) :
    s.displayTasksStart = I.slot .daylight := by
  simp only [addTasks, atStart, displaySlinkAdd, if_true] at h
  obtain ⟨c, -, hs⟩ := bind_eq_ok.mp h
  cases hs
  rfl

lemma start_of_initTasks : ∀ {k s cur}, initTasks I k s cur = .ok s' →
    s'.displayTasksStart = s.displayTasksStart
  | 0, _, _, h => by cases h
  | k + 1, s, cur, h => by
    simp only [initTasks] at h
    split at h
    · cases h
      rfl
    · split at h
      · exact (start_of_initTasks h).trans rfl
      · cases h

/-- **`display_init` leaves a list that starts in a dead stack slot.** -/
theorem start_of_displayInit {m : Mem} (h : displayInit I fuel (atStart m) = .ok s) :
    s.displayTasksStart = I.slot .daylight := by
  unfold displayInit at h
  obtain ⟨s₁, hadd, hinit⟩ := bind_eq_ok.mp h
  exact (start_of_initTasks hinit).trans (start_of_addTasks hadd)

lemma unlinked_addTask {c c' : Ptr × Mem} {t : Task} (hc : NoTask I c.1 ∧ Unlinked I c.2)
    (h : addTask I fuel c t = .ok c') : NoTask I c'.1 ∧ Unlinked I c'.2 := by
  unfold addTask at h
  split at h
  · cases h
  · next r x m he =>
    cases h
    obtain ⟨hr, -, hm⟩ := displaySlinkAdd_closed noTask_zero (noTask_slot t) hc.1 hc.2 he
    exact ⟨hr, hm⟩

/-- **After the nine calls of `display_slink_add` the list holds none of the tasks.** -/
theorem not_mem_of_addTasks {m : Mem} (hm : Unlinked I m)
    (h : addTasks I fuel (atStart m) = .ok s) {l : List Ptr}
    (hl : Lists s.mem s.displayTasksStart l) (t : Task) : I.addr t ∉ l := by
  have hstart := start_of_addTasks h
  have hmem : Unlinked I s.mem := by
    unfold addTasks at h
    split at h
    · cases h
    · next cur start m₁ he =>
      obtain ⟨hcur, -, hm₁⟩ := displaySlinkAdd_closed (x := 0) noTask_zero
        (noTask_slot .daylight) noTask_zero hm he
      obtain ⟨c, hfold, hs⟩ := bind_eq_ok.mp h
      cases hs
      have hc := foldlM_inv (P := fun c : Ptr × Mem => NoTask I c.1 ∧ Unlinked I c.2)
        (fun _ _ _ hc hadd => unlinked_addTask hc hadd) (s := (cur, m₁)) ⟨hcur, hm₁⟩ hfold
      exact hc.2
  intro ht
  refine Chain.forall_mem (S := NoTask I) hl ?_ (fun p _ => ?_) _ ht t rfl
  · rw [hstart]
    exact noTask_slot .daylight
  · rcases displaySlinkNext_eq s.mem p with hp | hp
    · rw [hp]
      exact noTask_zero
    · rw [hp]
      exact hmem p

/-- **A frame that returns leaves no task in the list**, whatever the tasks returned. -/
theorem start_of_displayUpdate (h : displayUpdate I fuel s = .ok s') :
    s'.displayTasksStart = 0 := by
  unfold displayUpdate at h
  obtain ⟨s₁, -, hcompact⟩ := bind_eq_ok.mp h
  split at hcompact
  · cases hcompact
  · next start m hc =>
    cases hcompact
    exact displaySlinkCompact_eq_zero hc

lemma not_listsTasks {m : Mem} (h : displayInit I fuel (atStart m) = .ok s) :
    ¬ ListsTasks I s tasks := by
  intro hl
  have hhead : I.addr .daylight = s.displayTasksStart := Chain.head_eq hl
  rw [start_of_displayInit h] at hhead
  exact I.slot_ne_addr _ _ hhead.symm

end

/-- **The engine runs its tasks in no memory**: `display_init` does not list them, wherever
it returns. -/
theorem not_runsTasks (m : Mem) :
    (∀ fuel s, displayInit I fuel (atStart m) = .ok s → ¬ Initialized I s) ∧ ¬ RunsTasks I m := by
  have hinit : ∀ fuel s, displayInit I fuel (atStart m) = .ok s → ¬ Initialized I s :=
    fun _ _ h hi => not_listsTasks h hi.1
  refine ⟨hinit, ?_⟩
  rintro ⟨fuel, s, h, hi, -⟩
  exact hinit fuel s h hi

/-! ### An example -/

/-- The routines at `0x100` and `0x200`, the statics at `0x1000`, the stack at `0x8000`. -/
def exampleImage : Image where
  addr t := BitVec.ofNat 32 (0x1000 + 0x40 * tasks.idxOf t)
  slot t := BitVec.ofNat 32 (0x8000 + 0x10 * tasks.idxOf t)
  code w :=
    ((tasks.find? fun t => w.toNat = 0x100 + 4 * tasks.idxOf t).map .init).or
      ((tasks.find? fun t => w.toNat = 0x200 + 4 * tasks.idxOf t).map .update)
  runInit _ _ m := m
  runUpdate _ _ m := (m, false)
  slot_ne_addr t u := by cases t <;> cases u <;> decide
  addr_ne_zero t := by cases t <;> decide

/-- With zeroed memory the first call of an init routine goes through a null pointer. -/
theorem displayInit_badCall :
    displayInit exampleImage 20 (atStart fun _ => ⟨0, 0, 0, 0, 0⟩) = .error .badCall ∧
      ¬ RunsTasks exampleImage fun _ => ⟨0, 0, 0, 0, 0⟩ := by
  refine ⟨rfl, ?_⟩
  rintro ⟨fuel, s, h, hi, -⟩
  exact not_listsTasks h hi.1

end Blastit.Fw.DisplayTasks
