import GbfLibrary.Enet.HttpHandleList
import GbfLibrary.Systems.Run

/-!
# Runs of calls on handles

Sequences of `enet_http_new`, `enet_http_del` and the calls that name a handle, against a registry of objects by the
values of their handles.
-/

set_option autoImplicit false

namespace GbfLibrary.Enet.Http

open Memory Prog Systems

/-- A call. The ones that work on the object of a handle differ in what they do there. -/
inductive HandleCall where
  | new (url : Option Bytes) (ticks : List (BitVec 32)) (handle : Bool)
  | del (handle : BitVec 32)
  | on (handle : BitVec 32) (act : HttpObj → Option (Status × HttpObj))

/-- The code, and the value of the handle that a call created. -/
abbrev Answer := Status × Option (BitVec 32)

def HttpMachine.start : HttpMachine := ⟨∅, ∅, fun _ => .zero, ⟨0, fun _ => none⟩, 0⟩

def machineCall (malloc : Memory.Malloc) (strings : Malloc) (gethostbyname : Resolver) :
    HandleCall → HttpProg Answer
  | .new url ticks handle => httpNew malloc strings gethostbyname url ticks handle
  | .del handle => (·, none) <$> httpDel handle
  | .on handle act => (·, none) <$> httpOn handle act

/-- `enet_http_set` is one of the calls that name a handle. -/
theorem machineCall_httpSet (malloc : Memory.Malloc) (strings : Malloc) (gethostbyname : Resolver)
    (handle : BitVec 32) (opt : SetOption) :
    machineCall malloc strings gethostbyname (.on handle (opt.act strings gethostbyname)) =
      (·, none) <$> httpSet strings gethostbyname handle opt := rfl

/-- The object of a new handle, with its URL or without one. -/
def newObject (strings : Malloc) (gethostbyname : Resolver) : Option Bytes → Option HttpObj
  | none => some .new
  | some url => (loadUrl strings gethostbyname url .new).map Prod.snd

/-- What the calls are for: objects that go by the values of their handles. -/
def registryCall (strings : Malloc) (gethostbyname : Resolver) :
    HandleCall → Registry → Option (Answer × Registry)
  | .new _ _ false, objects => some ((.invParam, none), objects)
  | .new url ticks true, objects => do
      let tick ← ticks.find? fun tick => (objects (hashIntShift tick)).isNone
      let obj ← newObject strings gethostbyname url
      return ((.ok, some (hashIntShift tick)), Function.update objects (hashIntShift tick) (some obj))
  | .del handle, objects =>
      match objects handle with
      | none => some ((.invHandle, none), objects)
      | some _ => some ((.ok, none), Function.update objects handle none)
  | .on handle act, objects =>
      match objects handle with
      | none => some ((.invHandle, none), objects)
      | some obj => (act obj).map fun (rc, obj) => ((rc, none), Function.update objects handle (some obj))

section Runs

variable {s s' : HttpMachine} {nodes : List Addr} {objects : Registry} {malloc : Memory.Malloc} {strings : Malloc}
  {gethostbyname : Resolver}

/-- There is a list for the objects. -/
def Listed (s : HttpMachine) (objects : Registry) : Prop := ∃ nodes, Represents s nodes objects

private theorem listed_start : Listed HttpMachine.start fun _ => none := by
  refine ⟨[], ⟨List.nodup_nil, List.nodup_nil, nofun, ?_⟩, rfl, Finset.notMem_empty 0⟩
  intro value obj
  exact ⟨nofun, fun ⟨_, member, _⟩ => absurd member List.not_mem_nil⟩

/-- A value that is not known is refused, and nothing changes. -/
theorem Listed.refuses {value : BitVec 32} (listed : Listed s objects) (unknown : objects value = none) :
    httpDel value s = some (.invHandle, s) ∧ ∀ act, httpOn value act s = some (.invHandle, s) := by
  obtain ⟨nodes, represents⟩ := listed
  have nowhere := represents.find_unknown unknown
  exact ⟨by simp [httpDel, nowhere], fun act => by simp [httpOn, nowhere]⟩

private theorem Listed.httpDel_apply {value : BitVec 32} {obj : HttpObj} (listed : Listed s objects)
    (known : objects value = some obj) :
    ∃ s', httpDel value s = some (.ok, s') ∧ Listed s' (Function.update objects value none) := by
  obtain ⟨nodes, represents⟩ := listed
  obtain ⟨front, a, back, rfl, finds, here, _⟩ := represents.find_known known
  have notNull : a ≠ 0 := represents.linked.chain.notNull a (by simp)
  obtain ⟨s', deletes, after⟩ := represents.delete
  rw [here] at after
  exact ⟨s', by simp [httpDel, finds, notNull, deletes], _, after⟩

/-- What is done with a known value is done with the object that was created with it. -/
theorem Listed.httpOn_apply {value : BitVec 32} {obj : HttpObj} (listed : Listed s objects)
    (known : objects value = some obj) :
    ∃ put : HttpObj → HttpMachine, (∀ obj', Listed (put obj') (Function.update objects value (some obj'))) ∧
      ∀ act, httpOn value act s = (act obj).map fun (rc, obj') => (rc, put obj') := by
  obtain ⟨nodes, represents⟩ := listed
  obtain ⟨front, a, back, rfl, finds, here, content⟩ := represents.find_known known
  have inside : a ∈ front ++ a :: back := by simp
  have notNull : a ≠ 0 := represents.linked.chain.notNull a inside
  have reads := objectAt_apply (represents.owned a inside).2.1 content
  refine ⟨_, fun obj' => ⟨_, here ▸ represents.setContent obj'⟩, fun act => ?_⟩
  cases acts : act obj with
  | none => simp [httpOn, finds, notNull, represents.live a inside, reads, acts, fault]
  | some result => simp [httpOn, finds, notNull, represents.live a inside, reads, acts]

/-- A new handle is created where the clock shows a value that is not known. -/
theorem Listed.httpNew_alike (listed : Listed s objects) (succeeds : malloc.Succeeds) (url : Option Bytes)
    (ticks : List (BitVec 32)) : Alike Listed (httpNew malloc strings gethostbyname url ticks true s)
      (registryCall strings gethostbyname (.new url ticks true) objects) := by
  obtain ⟨nodes, represents⟩ := listed
  obtain ⟨a, o, s', represents', ⟨outside, notNull, here⟩, ⟨objNotNull, inside, content, own⟩, news⟩ :=
    newHandle_apply succeeds represents ticks
  cases found : ticks.find? fun tick => (objects (hashIntShift tick)).isNone with
  | none =>
      rw [found, Option.map_none] at news
      simp [httpNew, news, registryCall, found, Alike]
  | some tick =>
      have unknown : objects (hashIntShift tick) = none := by simpa using List.find?_some found
      rw [found, Option.map_some] at news
      obtain ⟨s'', inserts, created, handleHere, objHere, contentHere⟩ :=
        represents'.create outside notNull here objNotNull inside content own unknown
      obtain ⟨front, back, split⟩ := List.append_of_mem ((second_perm a nodes).mem_iff.mpr List.mem_cons_self)
      rw [split] at created
      have member : a ∈ front ++ a :: back := by simp
      have live := created.live a member
      have reads := objectAt_apply (objHere ▸ (created.owned a member).2.1) contentHere
      cases url with
      | none =>
          have answers : httpNew malloc strings gethostbyname none ticks true s =
              some ((.ok, some (hashIntShift tick)), s'') := by
            simp [httpNew, news, notNull, inserts, live, handleHere]
          have expected : registryCall strings gethostbyname (.new none ticks true) objects =
              some ((.ok, some (hashIntShift tick)), Function.update objects (hashIntShift tick) (some .new)) := by
            simp [registryCall, newObject, found]
          rw [answers, expected]
          exact .some ⟨rfl, _, created⟩
      | some url =>
          cases loads : loadUrl strings gethostbyname url .new with
          | none =>
              have answers : httpNew malloc strings gethostbyname (some url) ticks true s = none := by
                simp [httpNew, news, notNull, inserts, live, objHere, reads, loads, fault]
              have expected : registryCall strings gethostbyname (.new (some url) ticks true) objects = none := by
                simp [registryCall, newObject, found, loads]
              rw [answers, expected]
              exact .none
          | some loaded =>
              obtain ⟨rc, obj⟩ := loaded
              have after := created.setContent obj
              rw [handleHere, objHere, Function.update_idem] at after
              have answers : httpNew malloc strings gethostbyname (some url) ticks true s =
                  some ((.ok, some (hashIntShift tick)), s''.withGlob { s''.glob with
                    objects := Function.update s''.glob.objects o (some obj) }) := by
                simp [httpNew, news, notNull, inserts, live, handleHere, objHere, reads, loads]
              have expected : registryCall strings gethostbyname (.new (some url) ticks true) objects =
                  some ((.ok, some (hashIntShift tick)), Function.update objects (hashIntShift tick) (some obj)) := by
                simp [registryCall, newObject, found, loads]
              rw [answers, expected]
              exact .some ⟨rfl, _, after⟩

/-- Every call is answered as its purpose says, and leaves a list of the objects that there are then. -/
theorem machineCall_alike (succeeds : malloc.Succeeds) (call : HandleCall) (s : HttpMachine) (objects : Registry)
    (listed : Listed s objects) :
    Alike Listed (machineCall malloc strings gethostbyname call s) (registryCall strings gethostbyname call objects) := by
  cases call with
  | new url ticks handle =>
      cases handle with
      | false => exact .some ⟨rfl, listed⟩
      | true => exact listed.httpNew_alike succeeds url ticks
  | del handle =>
      cases known : objects handle with
      | none =>
          simp only [machineCall, map_apply, (listed.refuses known).1, registryCall, known]
          exact .some ⟨rfl, listed⟩
      | some obj =>
          obtain ⟨s', deletes, after⟩ := listed.httpDel_apply known
          simp only [machineCall, map_apply, deletes, registryCall, known]
          exact .some ⟨rfl, after⟩
  | on handle act =>
      cases known : objects handle with
      | none =>
          simp only [machineCall, map_apply, (listed.refuses known).2, registryCall, known]
          exact .some ⟨rfl, listed⟩
      | some obj =>
          obtain ⟨put, after, acts⟩ := listed.httpOn_apply known
          simp only [machineCall, map_apply, acts, registryCall, known]
          cases act obj with
          | none => exact .none
          | some result => exact .some ⟨rfl, after result.2⟩

/-- The handle of a value exists after a call: it was created, or it was there and not deleted. -/
def existsAfter (value : BitVec 32) (before : Bool) : HandleCall × Answer → Bool
  | (.new .., .ok, some created) => before || created = value
  | (.del deleted, .ok, _) => before && deleted ≠ value
  | _ => before

private theorem registryCall_exists {event : HandleCall × Answer} {after : Registry} (value : BitVec 32)
    (step : answered (registryCall strings gethostbyname) event objects = some after) :
    (after value).isSome = existsAfter value (objects value).isSome event := by
  obtain ⟨call, answer⟩ := event
  obtain ⟨⟨given, after'⟩, answers, same⟩ := Option.bind_eq_some_iff.mp step
  obtain ⟨rfl, rfl⟩ : given = answer ∧ after' = after := by simpa using same
  cases call with
  | new url ticks handle =>
      cases handle with
      | false =>
          cases answers
          rfl
      | true =>
          obtain ⟨tick, _, more⟩ := Option.bind_eq_some_iff.mp answers
          obtain ⟨obj, _, done⟩ := Option.bind_eq_some_iff.mp more
          cases done
          by_cases here : hashIntShift tick = value
          · simp [existsAfter, here]
          · simp [existsAfter, here, Function.update_of_ne (Ne.symm here)]
  | del handle =>
      simp only [registryCall] at answers
      split at answers
      · cases answers
        rfl
      · cases answers
        by_cases here : handle = value
        · simp [existsAfter, here]
        · simp [existsAfter, here, Function.update_of_ne (Ne.symm here)]
  | on handle act =>
      simp only [registryCall] at answers
      split at answers
      · cases answers
        rfl
      · next obj known =>
        obtain ⟨result, _, done⟩ := Option.map_eq_some_iff.mp answers
        cases done
        by_cases here : handle = value
        · subst here
          simp [existsAfter, known]
        · simp [existsAfter, Function.update_of_ne (Ne.symm here)]

/-- The objects are those whose handles were created and not deleted. -/
theorem registryRun_exists {calls : List (HandleCall × Answer)} {after : Registry} (value : BitVec 32)
    (runs : run (answered (registryCall strings gethostbyname)) calls objects = some after) :
    (after value).isSome = calls.foldl (existsAfter value) (objects value).isSome := by
  induction calls generalizing objects with
  | nil =>
      cases runs
      rfl
  | cons event calls ih =>
      obtain ⟨between, step, rest⟩ := run_cons.mp runs
      rw [List.foldl_cons, ih rest, registryCall_exists value step]

/-- What a call brings along by itself: a string for the URL, and something to do with an object that returns. -/
def HandleCall.Proper : HandleCall → Prop
  | .new url _ _ => ∀ text ∈ url, 0 ∉ text
  | .del _ => True
  | .on _ act => ∀ obj, (act obj).isSome = true

/-- The clock shows a value for a new handle that no handle has. -/
def HandleCall.Ends : HandleCall → HttpMachine → Prop
  | .new _ ticks _, s => (genHandleValue ticks s).isSome = true
  | _, _ => True

instance : (call : HandleCall) → (s : HttpMachine) → Decidable (call.Ends s)
  | .new _ ticks _, s => inferInstanceAs (Decidable ((genHandleValue ticks s).isSome = true))
  | .del _, _ => .isTrue trivial
  | .on .., _ => .isTrue trivial

/-- The URL of a new handle fits the arrays in which it is taken apart. -/
def HandleCall.Fits : HandleCall → Prop
  | .new (some url) _ true => Http.Fits url
  | _ => True

/-- The state behind a call. -/
def machineStep (malloc : Memory.Malloc) (gethostbyname : Resolver) (call : HandleCall) (s : HttpMachine) :
    Option HttpMachine :=
  (machineCall malloc (fun _ => true) gethostbyname call s).map Prod.snd

private theorem registryNew_isSome_iff {url : Option Bytes} {ticks : List (BitVec 32)}
    (proper : ∀ text ∈ url, 0 ∉ text)
    (ends : (ticks.find? fun tick => (objects (hashIntShift tick)).isNone).isSome = true) :
    (registryCall (fun _ => true) gethostbyname (.new url ticks true) objects).isSome = true ↔
      (HandleCall.new url ticks true).Fits := by
  obtain ⟨tick, found⟩ := Option.isSome_iff_exists.mp ends
  cases url with
  | none => simp [registryCall, newObject, found, HandleCall.Fits]
  | some url =>
      have string : 0 ∉ url := proper url rfl
      by_cases fits : Http.Fits url
      · obtain ⟨obj, loads, _⟩ := loadUrl_apply gethostbyname .new string fits
        simp [registryCall, newObject, found, loads, HandleCall.Fits, fits]
      · have overflows := loadUrl_eq_none gethostbyname .new string fits
        simp [registryCall, newObject, found, overflows, HandleCall.Fits, fits]

private theorem registryCall_isSome_iff {call : HandleCall} (listed : Listed s objects) (proper : call.Proper)
    (ends : call.Ends s) :
    (registryCall (fun _ => true) gethostbyname call objects).isSome = true ↔ call.Fits := by
  cases call with
  | new url ticks handle =>
      cases handle with
      | false => simp [registryCall, HandleCall.Fits]
      | true =>
          obtain ⟨nodes, represents⟩ := listed
          have shown : (genHandleValue ticks s).isSome = true := ends
          rw [genHandleValue_apply represents, Option.isSome_map] at shown
          exact registryNew_isSome_iff proper shown
  | del handle =>
      cases known : objects handle with
      | none => simp [registryCall, known, HandleCall.Fits]
      | some obj => simp [registryCall, known, HandleCall.Fits]
  | on handle act =>
      cases known : objects handle with
      | none => simp [registryCall, known, HandleCall.Fits]
      | some obj => simp [registryCall, known, HandleCall.Fits, proper obj]

/-- A call returns unless it is `enet_http_new` with a URL that does not fit. -/
theorem machineCall_isSome_iff (succeeds : malloc.Succeeds) {call : HandleCall} (listed : Listed s objects)
    (proper : call.Proper) (ends : call.Ends s) :
    (machineCall malloc (fun _ => true) gethostbyname call s).isSome = true ↔ call.Fits := by
  rw [Alike.isSome_eq (machineCall_alike succeeds call s objects listed)]
  exact registryCall_isSome_iff listed proper ends

private theorem machineCall_listed (succeeds : malloc.Succeeds) {call : HandleCall} {answer : Answer}
    (listed : Listed s objects) (returns : machineCall malloc strings gethostbyname call s = some (answer, s')) :
    ∃ objects, Listed s' objects := by
  have alike : Alike Listed (machineCall malloc strings gethostbyname call s) (registryCall strings gethostbyname call objects) :=
    machineCall_alike succeeds call s objects listed
  rw [returns] at alike
  generalize registryCall strings gethostbyname call objects = other at alike
  cases alike with
  | some both => exact ⟨_, both.2⟩

/-- After every run of calls the list is the one of the handles that were created and not deleted, with different
values, each with the object that was created with its value and changed by the calls that name it since. Every
further call does what it is for, and refuses values that are not known. -/
theorem handles_run (succeeds : malloc.Succeeds) {calls : List (HandleCall × Answer)}
    (runs : run (answered (machineCall malloc strings gethostbyname)) calls HttpMachine.start = some s) :
    ∃ nodes objects, run (answered (registryCall strings gethostbyname)) calls (fun _ => none) = some objects ∧
      Represents s nodes objects ∧ (∀ value, (objects value).isSome = calls.foldl (existsAfter value) false) ∧
        (∀ call, Alike Listed (machineCall malloc strings gethostbyname call s)
          (registryCall strings gethostbyname call objects)) ∧
            ∀ value, objects value = none →
              httpDel value s = some (.invHandle, s) ∧ ∀ act, httpOn value act s = some (.invHandle, s) := by
  have alike : Option.Rel Listed (run (answered (machineCall malloc strings gethostbyname)) calls HttpMachine.start)
      (run (answered (registryCall strings gethostbyname)) calls fun _ => none) :=
    run_answered (machineCall_alike succeeds) listed_start calls
  rw [runs] at alike
  cases other : run (answered (registryCall strings gethostbyname)) calls (fun _ => none) with
  | none =>
      rw [other] at alike
      cases alike
  | some objects =>
      rw [other] at alike
      obtain ⟨⟨nodes, represents⟩⟩ := alike
      exact ⟨nodes, objects, rfl, represents, fun value => registryRun_exists value other,
        fun call => machineCall_alike succeeds call s objects ⟨nodes, represents⟩,
        fun value unknown => Listed.refuses ⟨nodes, represents⟩ unknown⟩

/-- A list of calls returns exactly if the URLs of all new handles fit. -/
theorem handles_return_iff (succeeds : malloc.Succeeds) {calls : List HandleCall}
    (proper : ∀ call ∈ calls, call.Proper)
    (ends : Meets (machineStep malloc gethostbyname) HandleCall.Ends calls HttpMachine.start) :
    (∃ events s, events.map Prod.fst = calls ∧
      run (answered (machineCall malloc (fun _ => true) gethostbyname)) events HttpMachine.start = some s) ↔
        ∀ call ∈ calls, call.Fits := by
  refine exists_run_iff (P := fun s => ∃ objects, Listed s objects) ?_ ?_ ⟨_, listed_start⟩ (ends.and_labels proper)
  · rintro call s answer s' ⟨objects, listed⟩ returns
    exact machineCall_listed succeeds listed returns
  · rintro call s ⟨objects, listed⟩ ⟨proper, ends⟩
    exact machineCall_isSome_iff succeeds listed proper ends

/-- Where `malloc` succeeds, a list of calls returns exactly if the URLs of all new handles fit the arrays of
`enet_http_load_url`, and then the list of handles is the one of those that were created and not deleted, with
different values, each with the object that was created with its value and changed by the calls that name it since.
Every further call does what it is for, and refuses values that are not known. -/
theorem handles_run_iff (succeeds : malloc.Succeeds) {calls : List HandleCall}
    (proper : ∀ call ∈ calls, call.Proper)
    (ends : Meets (machineStep malloc gethostbyname) HandleCall.Ends calls HttpMachine.start) :
    (∃ events s nodes objects, events.map Prod.fst = calls ∧
      run (answered (machineCall malloc (fun _ => true) gethostbyname)) events HttpMachine.start = some s ∧
        run (answered (registryCall (fun _ => true) gethostbyname)) events (fun _ => none) = some objects ∧
          Represents s nodes objects ∧ (∀ value, (objects value).isSome = events.foldl (existsAfter value) false) ∧
            (∀ call, Alike Listed (machineCall malloc (fun _ => true) gethostbyname call s)
              (registryCall (fun _ => true) gethostbyname call objects)) ∧
                ∀ value, objects value = none →
                  httpDel value s = some (.invHandle, s) ∧ ∀ act, httpOn value act s = some (.invHandle, s)) ↔
      ∀ call ∈ calls, call.Fits := by
  rw [← handles_return_iff succeeds proper ends]
  constructor
  · rintro ⟨events, s, _, _, same, runs, _⟩
    exact ⟨events, s, same, runs⟩
  · rintro ⟨events, s, same, runs⟩
    obtain ⟨nodes, objects, kept⟩ := handles_run succeeds runs
    exact ⟨events, s, nodes, objects, same, runs, kept⟩

def sampleCalls : List HandleCall :=
  [.new none [1] true, .new (some [104, 116, 116, 112, 58, 47, 47, 97, 47]) [1, 2] true, .new none [2, 3] true,
    .del (hashIntShift 2), .on (hashIntShift 3) (SetOption.act (fun _ => true) (fun _ => none) (.header [97] [98])),
    .on (hashIntShift 2) fun obj => some (.ok, obj), .del (hashIntShift 2)]

theorem handles_run_iff_sample : ∃ events s nodes objects, events.map Prod.fst = sampleCalls ∧
    run (answered (machineCall Malloc.bump (fun _ => true) fun _ => none)) events HttpMachine.start = some s ∧
      Represents s nodes objects := by
  have proper : ∀ call ∈ sampleCalls, call.Proper := by
    simp [sampleCalls, HandleCall.Proper, SetOption.act]
  have ends : Meets (machineStep Malloc.bump fun _ => none) HandleCall.Ends sampleCalls HttpMachine.start := by
    decide +kernel
  have fits : ∀ call ∈ sampleCalls, call.Fits := by
    have short : Fits [104, 116, 116, 112, 58, 47, 47, 97, 47] := by
      unfold Fits
      decide
    simpa [sampleCalls, HandleCall.Fits] using short
  obtain ⟨events, s, nodes, objects, same, runs, _, represents, _⟩ :=
    (handles_run_iff Malloc.bump_succeeds proper ends).mpr fits
  exact ⟨events, s, nodes, objects, same, runs, represents⟩

/-- A new handle with a URL whose name has as many letters as the array has places. -/
def longCalls : List HandleCall := [.new (some (List.replicate 512 97)) [1] true]

private theorem long_notFits : ¬ Fits (List.replicate 512 97) := by
  unfold Fits
  decide +kernel

/-- The terminator of that name is written behind the array, or missed. -/
theorem handles_run_overflows : (∀ call ∈ longCalls, call.Proper) ∧
    Meets (machineStep Malloc.bump fun _ => none) HandleCall.Ends longCalls HttpMachine.start ∧
      ¬ ∃ events s, events.map Prod.fst = longCalls ∧
        run (answered (machineCall Malloc.bump (fun _ => true) fun _ => none)) events HttpMachine.start = some s := by
  have proper : ∀ call ∈ longCalls, call.Proper := by
    rw [longCalls, List.forall_mem_singleton]
    rintro _ ⟨⟩ member
    exact absurd (List.eq_of_mem_replicate member) (by decide)
  have shown : (genHandleValue [1] HttpMachine.start).isSome = true := by decide
  have ends : Meets (machineStep Malloc.bump fun _ => none) HandleCall.Ends longCalls HttpMachine.start :=
    ⟨shown, fun _ _ => trivial⟩
  refine ⟨proper, ends, ?_⟩
  rw [handles_return_iff Malloc.bump_succeeds proper ends, longCalls, List.forall_mem_singleton]
  exact long_notFits

end Runs

end GbfLibrary.Enet.Http
