import GbfLibrary.Thp.Task

/-!
# The two lists of a task server

What each call does to the queue of packages and to the pool of spare packages.
-/

set_option autoImplicit false

namespace GbfLibrary.Thp

open Memory Prog Systems

/-- A live task server with its queue and its spare packages. -/
structure Listed (m : TaskMachine) (queue pool : List Addr) : Prop where
  alive : m.glob.alive = true
  queued : Chain TaskPackage.next m m.glob.packages queue
  pooled : Chain TaskPackage.next m m.glob.packagePool pool
  nodup : (queue ++ pool).Nodup
  small : ∀ a ∈ m.live, a ≠ 0 ∧ a < 2 ^ 32
  count : m.glob.taskCount = queue.length

/-- The packages off the lists, but for `a`, and the payloads on the queue are
as they were. -/
structure Spares (m m' : TaskMachine) (queue pool : List Addr) (a : Addr) : Prop where
  others : ∀ b, b ∉ queue ++ pool → b ≠ a → m'.cell b = m.cell b
  payloads : ∀ b ∈ queue, (m'.cell b).payload = (m.cell b).payload

section Lists

variable {malloc : Malloc} {m : TaskMachine} {queue pool : List Addr} {a : Addr} {payload : Payload}
  {fuel : Nat}

@[simp] theorem handleWlock_apply (alive : m.glob.alive = true) :
    handleWlock m = some (.ok, m) := by
  simp [handleWlock, alive]

private theorem increment_of_lt {n : Nat} (room : n + 1 < 2 ^ 32) : increment n = n + 1 :=
  if_neg room.ne

@[simp] theorem decrement_succ (n : Nat) : decrement (n + 1) = n := rfl

private theorem mallocPackage_apply (malloc : Malloc) (m : TaskMachine) :
    (∃ m', mallocPackage malloc m = some (0, m') ∧ m'.live = m.live ∧ m'.cell = m.cell ∧
        m'.glob = m.glob) ∨
      ∃ a, mallocPackage malloc m = some (a, m.extend a (m.cell a)) ∧ a ≠ 0 ∧ a < 2 ^ 32 ∧
        a ∉ m.live := by
  cases picked : malloc.pick (m.live ∪ m.others) m.callocs with
  | none =>
      exact .inl ⟨{ m with callocs := m.callocs + 1 }, by simp only [mallocPackage, picked], rfl, rfl, rfl⟩
  | some a =>
      obtain ⟨notNull, fresh⟩ := malloc.fresh _ _ _ picked
      by_cases inside : a < 2 ^ 32
      · refine .inr ⟨a, by simp only [mallocPackage, picked, if_pos inside], notNull, inside, ?_⟩
        exact fun live => fresh (Finset.mem_union_left _ live)
      · exact .inl ⟨{ m with callocs := m.callocs + 1 },
          by simp only [mallocPackage, picked, if_neg inside], rfl, rfl, rfl⟩

theorem Listed.same {m' : TaskMachine} (listed : Listed m queue pool) (live : m'.live = m.live)
    (cell : m'.cell = m.cell) (glob : m'.glob = m.glob) : Listed m' queue pool := by
  obtain ⟨alive, queued, pooled, nodup, small, count⟩ := listed
  have agree : ∀ nodes, AgreeOn nodes m m' := fun nodes a _ => ⟨by rw [live], by rw [cell]⟩
  refine ⟨by rwa [glob], ?_, ?_, nodup, by rwa [live], by rwa [glob]⟩
  · rw [glob]
    exact (Chain.readsNodes _ _ queue m m' (agree queue)).mp queued
  · rw [glob]
    exact (Chain.readsNodes _ _ pool m m' (agree pool)).mp pooled

theorem Listed.modify {f : TaskPackage → TaskPackage} (listed : Listed m queue pool)
    (outside : a ∉ queue ++ pool) : Listed (m.modify a f) queue pool := by
  obtain ⟨alive, queued, pooled, nodup, small, count⟩ := listed
  simp only [List.mem_append, not_or] at outside
  constructor
  · rwa [Machine.modify_glob]
  · rw [Machine.modify_glob]
    exact (Chain.modify outside.1).mpr queued
  · rw [Machine.modify_glob]
    exact (Chain.modify outside.2).mpr pooled
  · exact nodup
  · rwa [Machine.modify_live]
  · rwa [Machine.modify_glob]

/-- Without spare packages there is a new one, if there is memory. -/
theorem prepareTaskPackage_new (malloc : Malloc) (payload : Payload) (listed : Listed m queue []) :
    (∃ m', prepareTaskPackage malloc payload.task payload.size payload.output m =
        some ((.noMemory, none), m') ∧ Listed m' queue [] ∧ m'.live = m.live ∧ m'.cell = m.cell) ∨
      ∃ a m', prepareTaskPackage malloc payload.task payload.size payload.output m =
          some ((.ok, some a), m') ∧ Listed m' queue [] ∧ a ∉ m.live ∧ m'.live = insert a m.live ∧
        (m'.cell a).payload = payload ∧ (m'.cell a).next = 0 ∧ Spares m m' queue [] a := by
  have alive := listed.alive
  have empty : m.glob.packagePool = 0 := listed.pooled
  rcases mallocPackage_apply malloc m with ⟨m', allocates, live, cell, glob⟩ |
    ⟨a, allocates, notNull, inside, fresh⟩
  · left
    refine ⟨m', by simp [prepareTaskPackage, alive, empty, allocates], ?_, live, cell⟩
    exact listed.same live cell glob
  · right
    have outside : a ∉ queue := fun member => fresh (listed.queued.live a member)
    obtain ⟨_, queued, pooled, nodup, small, count⟩ := listed
    refine ⟨a, (m.extend a (m.cell a)).modify a fun _ => ⟨payload.task, payload.size, payload.output, 0⟩,
      ?_, ⟨by simpa using alive, ?_, by simpa [Chain] using pooled, nodup, ?_, by simpa using count⟩, fresh,
      by simp, by simp [TaskPackage.payload], by simp, ?_, ?_⟩
    · simp [prepareTaskPackage, alive, empty, allocates, notNull]
    · simpa [Chain.modify outside, Chain.extend outside] using queued
    · intro b member
      rw [Machine.modify_live, Machine.extend_live, Finset.mem_insert] at member
      rcases member with rfl | old
      · exact ⟨notNull, inside⟩
      · exact small b old
    · intro b _ different
      rw [Machine.modify_cell_of_ne different, Machine.extend_cell_of_ne different]
    · intro b member
      have different : b ≠ a := fun same => outside (same ▸ member)
      rw [Machine.modify_cell_of_ne different, Machine.extend_cell_of_ne different]

theorem prepareTaskPackage_spare (malloc : Malloc) (payload : Payload)
    (listed : Listed m queue (a :: pool)) :
    ∃ m', prepareTaskPackage malloc payload.task payload.size payload.output m =
        some ((.ok, some a), m') ∧ Listed m' queue pool ∧ m'.live = m.live ∧
      (m'.cell a).payload = payload ∧ (m'.cell a).next = 0 ∧ Spares m m' queue pool a := by
  obtain ⟨alive, queued, ⟨head, notNull, live, rest⟩, nodup, small, count⟩ := listed
  have distinct := List.perm_middle.nodup_iff.mp nodup
  obtain ⟨outside, others⟩ := List.nodup_cons.mp distinct
  simp only [List.mem_append, not_or] at outside
  refine Exists.intro ?state (And.intro ?runs ?result)
  case runs =>
    simp [prepareTaskPackage, alive, head, notNull, live]
    rfl
  case result =>
    refine ⟨⟨by simp, ?_, ?_, others, by simpa using small, by simpa using count⟩, by simp,
      by simp [TaskPackage.payload], by simp, ?_, ?_⟩
    · simpa [Chain.modify outside.1] using queued
    · simpa [Chain.modify outside.2] using rest
    · intro b _ different
      simp [different]
    · intro b member
      have different : b ≠ a := fun same => outside.1 (same ▸ member)
      simp [different]

theorem pushTask_apply (listed : Listed m queue pool) (live : a ∈ m.live)
    (outside : a ∉ queue ++ pool) (final : (m.cell a).next = 0) (enough : m.live.card ≤ fuel) :
    ∃ m', pushTask fuel a m = some (.ok, m') ∧ Listed m' (queue ++ [a]) pool ∧ m'.live = m.live ∧
      (m'.cell a).payload = (m.cell a).payload ∧ Spares m m' queue pool a := by
  obtain ⟨alive, queued, pooled, nodup, small, count⟩ := listed
  have notNull := (small a live).1
  have distinct : (queue ++ [a] ++ pool).Nodup := by
    rw [List.append_assoc]
    exact List.perm_middle.nodup_iff.mpr (List.nodup_cons.mpr ⟨outside, nodup⟩)
  obtain ⟨queueNodup, poolNodup, apart⟩ := List.nodup_append'.mp nodup
  simp only [List.mem_append, not_or] at outside
  have room : (queue ++ [a]).length < 2 ^ 32 := by
    refine length_lt_of_nodup (List.nodup_append'.mp distinct).1 (Nat.two_pow_pos 32) fun b member => ?_
    rcases List.mem_append.mp member with inQueue | here
    · exact small b (queued.live b inQueue)
    · exact small b (List.mem_singleton.mp here ▸ live)
  rw [List.length_append, List.length_singleton] at room
  by_cases empty : m.glob.packages = 0
  · rw [empty] at queued
    obtain rfl := queued.nil_of_null
    refine Exists.intro ?first (And.intro ?firstRuns ?firstResult)
    case firstRuns =>
      simp [pushTask, packagePushTail, alive, empty]
      rfl
    case firstResult =>
      refine ⟨⟨by simp, ?_, by simpa using pooled, distinct, by simpa using small, ?_⟩,
        by simp, by simp, ⟨by simp, by simp⟩⟩
      · exact ⟨by simp, notNull, by simpa using live, by simpa [Chain] using final⟩
      · simp [count, increment_of_lt]
  · have short : queue.length ≤ fuel := (queued.length_le queueNodup).trans enough
    obtain ⟨front, last, rfl, walks⟩ := queued.lastNode_apply empty short
    have lastLive := queued.live last (by simp)
    have different : last ≠ a := fun same => outside.1 (by simp [same])
    have lastOutside : last ∉ pool := fun member => apart (by simp) member
    have linked : Chain TaskPackage.next (m.modify last fun p => { p with next := a }) m.glob.packages
        (front ++ [last, a]) :=
      queued.snoc queueNodup outside.1 notNull live final rfl
    have unchanged : (m.modify last fun p => { p with next := a }).modify a (fun p => { p with next := 0 }) =
        m.modify last fun p => { p with next := a } := by
      refine Machine.modify_same ?_
      rw [Machine.modify_cell_of_ne different.symm, ← final]
    refine Exists.intro ?next (And.intro ?nextRuns ?nextResult)
    case nextRuns =>
      simp [pushTask, packagePushTail, alive, empty, walks, lastLive, live, unchanged]
      rfl
    case nextResult =>
      refine ⟨⟨by simp, by simpa using linked, ?_, distinct, by simpa using small, ?_⟩,
        by simp, by simp [different.symm], ?_, ?_⟩
      · simpa [Chain.modify lastOutside] using pooled
      · rw [@List.length_append _ (front ++ [last]), List.length_singleton]
        exact (congrArg increment count).trans (increment_of_lt room)
      · intro b offLists _
        have notLast : b ≠ last := fun same => offLists (by simp [same])
        simp [notLast]
      · intro b _
        by_cases same : b = last
        · subst same
          simp [TaskPackage.payload]
        · simp [same]

theorem popTask_empty (listed : Listed m [] pool) : popTask m = some ((.noTask, some 0), m) := by
  have empty : m.glob.packages = 0 := listed.queued
  simp [popTask, listed.alive, empty]

theorem popTask_first (listed : Listed m (a :: queue) pool) :
    ∃ m', popTask m = some ((.ok, some a), m') ∧ Listed m' queue pool ∧ m'.live = m.live ∧
      (m'.cell a).payload = (m.cell a).payload ∧ (m'.cell a).next = 0 ∧
      Spares m m' queue pool a := by
  obtain ⟨alive, ⟨head, notNull, live, rest⟩, pooled, nodup, small, count⟩ := listed
  rw [List.cons_append] at nodup
  obtain ⟨outside, others⟩ := List.nodup_cons.mp nodup
  simp only [List.mem_append, not_or] at outside
  refine Exists.intro ?state (And.intro ?runs ?result)
  case runs =>
    simp [popTask, alive, head, notNull, live]
    rfl
  case result =>
    refine ⟨⟨by simp, ?_, ?_, others, by simpa using small, ?_⟩, by simp, by simp [TaskPackage.payload],
      by simp, ?_, ?_⟩
    · simpa [Chain.modify outside.1] using rest
    · simpa [Chain.modify outside.2] using pooled
    · simp [count]
    · intro b _ different
      simp [different]
    · intro b member
      have different : b ≠ a := fun same => outside.1 (same ▸ member)
      simp [different]

/-- The first spare package: `*package` is not cleared. -/
theorem recollectTaskPackage_first (listed : Listed m queue []) (live : a ∈ m.live)
    (outside : a ∉ queue) (final : (m.cell a).next = 0) :
    ∃ m', recollectTaskPackage fuel a m = some (a, m') ∧ Listed m' queue [a] ∧ m'.live = m.live ∧
      Spares m m' queue [] a := by
  obtain ⟨alive, queued, pooled, nodup, small, count⟩ := listed
  have empty : m.glob.packagePool = 0 := pooled
  have notNull := (small a live).1
  refine Exists.intro ?state (And.intro ?runs ?result)
  case runs =>
    simp [recollectTaskPackage, alive, empty]
    rfl
  case result =>
    refine ⟨⟨by simp, by simpa using queued, ?_, ?_, by simpa using small, by simpa using count⟩,
      by simp, ⟨by simp, by simp⟩⟩
    · exact ⟨by simp, notNull, by simpa using live, by simpa [Chain] using final⟩
    · rw [List.append_nil] at nodup
      exact (List.perm_append_singleton a queue).nodup_iff.mpr (List.nodup_cons.mpr ⟨outside, nodup⟩)

/-- Further spare packages go behind the last one. -/
theorem recollectTaskPackage_next (listed : Listed m queue pool) (hasSpare : pool ≠ [])
    (live : a ∈ m.live) (outside : a ∉ queue ++ pool) (final : (m.cell a).next = 0)
    (enough : m.live.card ≤ fuel) :
    ∃ m', recollectTaskPackage fuel a m = some (0, m') ∧ Listed m' queue (pool ++ [a]) ∧
      m'.live = m.live ∧ Spares m m' queue pool a := by
  obtain ⟨alive, queued, pooled, nodup, small, count⟩ := listed
  have notNull := (small a live).1
  have distinct : (queue ++ (pool ++ [a])).Nodup := by
    rw [← List.append_assoc]
    exact (List.perm_append_singleton a (queue ++ pool)).nodup_iff.mpr
      (List.nodup_cons.mpr ⟨outside, nodup⟩)
  obtain ⟨queueNodup, poolNodup, apart⟩ := List.nodup_append'.mp nodup
  simp only [List.mem_append, not_or] at outside
  have nonempty : m.glob.packagePool ≠ 0 := by
    intro empty
    rw [empty] at pooled
    exact hasSpare pooled.nil_of_null
  have short : pool.length ≤ fuel := (pooled.length_le poolNodup).trans enough
  obtain ⟨front, last, rfl, walks⟩ := pooled.lastNode_apply nonempty short
  have lastLive := pooled.live last (by simp)
  have different : last ≠ a := fun same => outside.2 (by simp [same])
  have lastOutside : last ∉ queue := fun member => apart member (by simp)
  have linked : Chain TaskPackage.next (m.modify last fun p => { p with next := a })
      m.glob.packagePool (front ++ [last, a]) :=
    pooled.snoc poolNodup outside.2 notNull live final rfl
  refine Exists.intro ?state (And.intro ?runs ?result)
  case runs =>
    simp [recollectTaskPackage, cleanTaskPackage, alive, nonempty, walks, lastLive, live]
    rfl
  case result =>
    refine ⟨⟨by simpa using alive, ?_, ?_, by simpa using distinct, by simpa using small,
      by simpa using count⟩, by simp, ?_, ?_⟩
    · simpa [Chain.modify lastOutside, Chain.modify outside.1] using queued
    · have still : ((m.modify last fun p => { p with next := a }).cell a).next = 0 := by
        rw [Machine.modify_cell_of_ne different.symm, final]
      simpa using (((linked.modify_link still.symm).modify_link rfl).modify_link rfl).modify_link rfl
    · intro b offLists notThis
      have notLast : b ≠ last := fun same => offLists (by simp [same])
      simp [notThis, notLast]
    · intro b member
      have notLast : b ≠ last := fun same => lastOutside (same ▸ member)
      have notThis : b ≠ a := fun same => outside.1 (same ▸ member)
      simp [notThis, notLast]

end Lists

end GbfLibrary.Thp
