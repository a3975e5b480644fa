import Mathlib.Data.List.ReduceOption
import RenogyX10.TtyReader.Blind

set_option autoImplicit false

namespace RenogyX10.TtyReader

open Parse Proc

/-- One result of the iterator, with the read that its sub index selects. -/
abbrev Result := Option (TtyIdInfo × Option Kind)

/-- The results since the last reset, in order. -/
def resultsSince : List Event → List Result
  | [] => []
  | .reset :: _ => []
  | .next item sub :: older =>
      resultsSince older ++ [item.map fun idInfo => (idInfo, selectKind sub)]
  | _ :: older => resultsSince older

/-- The calls of `process_tty_id_info` since the last reset, in order. -/
def callsSince : List Event → List (TtyIdInfo × Option Kind)
  | [] => []
  | .reset :: _ => []
  | .call idInfo kind .. :: older => callsSince older ++ [(idInfo, kind)]
  | _ :: older => callsSince older

/-- Each register read stands right behind the call that selected its kind. -/
def ReadsSelected : List Event → Prop
  | [] => True
  | .read kind idInfo _ :: older =>
      (∃ start stop minMstime rest,
        older = .call idInfo (some kind) start stop minMstime :: rest) ∧ ReadsSelected older
  | _ :: older => ReadsSelected older

def prescribed (read : TtyIdInfo × Kind) : Result := some (read.1, some read.2)

/-- A pass and the null that ends it. -/
def cycleOf (ids : List TtyIdInfo) : List Result := (passOf ids).map prescribed ++ [none]

/-- What the iterator still returns before the pass is over. -/
def restOf (info : TtyInfo) : List Result :=
  (remaining info.idList info.idListIndex info.idListSubIndex).map prescribed ++ [none]

/-- The results so far and the rest of the current pass are whole passes. -/
structure Passing (s : Sys) : Prop where
  whole : ∃ passes, resultsSince s.trace ++ restOf s.info =
    (List.replicate passes (cycleOf s.info.idList)).flatten
  calls : callsSince s.trace = (resultsSince s.trace).reduceOption
  reads : ReadsSelected s.trace
  inside : s.info.idListIndex < s.info.idList.length ∨
    (s.info.idListIndex = 0 ∧ s.info.idListSubIndex = 0)

theorem restOf_start {info : TtyInfo} (index : info.idListIndex = 0)
    (sub : info.idListSubIndex = 0) : restOf info = cycleOf info.idList := by
  rw [restOf, index, sub, remaining_start, List.drop_zero]
  rfl

theorem flatten_replicate_succ (count : Nat) (cycle : List Result) :
    (List.replicate (count + 1) cycle).flatten = (List.replicate count cycle).flatten ++ cycle := by
  rw [List.replicate_succ', List.flatten_concat]

theorem clearSchedule_passing {s : Sys} (reads : ReadsSelected s.trace) :
    Passing (clearSchedule s) := by
  refine ⟨⟨1, ?_⟩, rfl, reads, .inr ⟨rfl, rfl⟩⟩
  rw [flatten_replicate_succ]
  exact restOf_start rfl rfl

theorem initial_passing (config : Config) : Passing (Sys.initial config) := by
  refine ⟨⟨1, ?_⟩, rfl, trivial, .inr ⟨rfl, rfl⟩⟩
  rw [flatten_replicate_succ]
  exact restOf_start rfl rfl

theorem passing_blind : PeerBlind Passing where
  peers _ _ _ passing := ⟨passing.whole, passing.calls, passing.reads, passing.inside⟩
  traffic s event isTraffic passing := by
    cases event <;> first
      | exact ⟨passing.whole, passing.calls, passing.reads, passing.inside⟩
      | exact ⟨passing.whole, passing.calls, ⟨isTraffic, passing.reads⟩, passing.inside⟩
      | cases isTraffic

theorem Passing.of_same {s t : Sys} (passing : Passing s) (ids : t.info.idList = s.info.idList)
    (index : t.info.idListIndex = s.info.idListIndex)
    (sub : t.info.idListSubIndex = s.info.idListSubIndex)
    (results : resultsSince t.trace = resultsSince s.trace)
    (calls : callsSince t.trace = callsSince s.trace)
    (reads : ReadsSelected s.trace → ReadsSelected t.trace) : Passing t := by
  obtain ⟨whole, called, selected, inside⟩ := passing
  have rest : restOf t.info = restOf s.info := by rw [restOf, restOf, ids, index, sub]
  refine ⟨?_, ?_, reads selected, ?_⟩
  · rw [results, rest, ids]
    exact whole
  · rw [calls, results]
    exact called
  · rw [ids, index, sub]
    exact inside

theorem takeNext_none {s : Sys} (passing : Passing s) (ended : (getNextIdInfo s.info).1 = none) :
    Passing (takeNext s) := by
  obtain ⟨⟨passes, whole⟩, calls, reads, _⟩ := passing
  have delivers := nextFrom_delivers s.info.idList s.info.idListIndex s.info.idListSubIndex
  cases left : remaining s.info.idList s.info.idListIndex s.info.idListSubIndex with
  | cons read later =>
      rw [left] at delivers
      obtain ⟨index, sub, found, _⟩ := delivers
      simp only [getNextIdInfo, found] at ended
      cases ended
  | nil =>
      rw [left] at delivers
      have found : nextFrom s.info.idList s.info.idListIndex s.info.idListSubIndex =
          (none, 0, 0) := delivers
      have rest : restOf s.info = [none] := by rw [restOf, left]; rfl
      have position : (takeNext s).info = { s.info with idListIndex := 0, idListSubIndex := 0 } := by
        simp only [takeNext, getNextIdInfo, found]
      have results : resultsSince (takeNext s).trace = resultsSince s.trace ++ [none] := by
        simp only [takeNext, getNextIdInfo, found, resultsSince, Option.map_none]
      refine ⟨⟨passes + 1, ?_⟩, ?_, reads, ?_⟩
      · rw [results, flatten_replicate_succ, position, restOf_start rfl rfl, ← whole, rest]
      · rw [results, List.reduceOption_append, ← calls]
        exact (List.append_nil _).symm
      · rw [position]
        exact .inr ⟨rfl, rfl⟩

theorem takeNext_some {s : Sys} (passing : Passing s) {idInfo : TtyIdInfo}
    (found : (getNextIdInfo s.info).1 = some idInfo) (io : ReadIo) (next : Int) :
    Passing (noteCall io idInfo (setNext next (takeNext s))) := by
  obtain ⟨⟨passes, whole⟩, calls, reads, _⟩ := passing
  have delivers := nextFrom_delivers s.info.idList s.info.idListIndex s.info.idListSubIndex
  cases left : remaining s.info.idList s.info.idListIndex s.info.idListSubIndex with
  | nil =>
      rw [left] at delivers
      have ended : nextFrom s.info.idList s.info.idListIndex s.info.idListSubIndex =
          (none, 0, 0) := delivers
      simp only [getNextIdInfo, ended] at found
      cases found
  | cons read later =>
      rw [left] at delivers
      obtain ⟨index, sub, returned, selected, _, at_index, after⟩ := delivers
      have same : read.1 = idInfo := by
        simpa only [getNextIdInfo, returned, Option.some.injEq] using found
      have position : (takeNext s).info =
          { s.info with idListIndex := index, idListSubIndex := sub } := by
        simp only [takeNext, getNextIdInfo, returned]
      have results : resultsSince (takeNext s).trace =
          resultsSince s.trace ++ [some (idInfo, selectKind sub)] := by
        simp only [takeNext, getNextIdInfo, returned, resultsSince, Option.map_some, same]
      have rest : restOf s.info = some (idInfo, selectKind sub) :: restOf (takeNext s).info := by
        rw [position, restOf, restOf, left, after, selected, ← same]
        rfl
      refine ⟨⟨passes, ?_⟩, ?_, reads, ?_⟩
      · show resultsSince (takeNext s).trace ++ restOf (takeNext s).info = _
        rw [results, List.append_assoc, List.singleton_append, ← rest, whole]
        rfl
      · show callsSince (takeNext s).trace ++
          [(idInfo, selectKind (takeNext s).info.idListSubIndex)] =
            (resultsSince (takeNext s).trace).reduceOption
        rw [results, List.reduceOption_append, ← calls, position]
        rfl
      · show (takeNext s).info.idListIndex < (takeNext s).info.idList.length ∨ _
        rw [position]
        exact .inl (List.getElem?_eq_some_iff.mp at_index).1

theorem checkModbus_passing (lib : ParseLib) (io : CheckIo) {s : Sys} (passing : Passing s) :
    Leads Passing Passing (checkModbus lib io s) := by
  apply checkModbus_rule lib io passing_blind
  · exact fun _ holds => holds
  · exact fun _ => passing.of_same rfl rfl rfl rfl rfl id
  · exact fun _ _ idInfo found => takeNext_some passing found io.read _
  · exact fun _ holds => holds
  · exact fun _ _ _ _ t holds _ => holds.of_same rfl rfl rfl rfl rfl id
  · exact fun _ _ ended => (takeNext_none passing ended).of_same rfl rfl rfl rfl rfl id
  · exact fun _ => passing.of_same rfl rfl rfl rfl rfl id

theorem ttyMainLoop_passing (lib : ParseLib) (io : LoopIo) {s : Sys} (passing : Passing s) :
    Passing (ttyMainLoop lib io s).state := by
  have same : ∀ t, Passing t → Passing t := fun _ holds => holds
  refine (passing_blind.ttyMainLoop same lib io ?_ ?_).state same
  · apply scheduleReads_rule
    · exact fun _ => clearSchedule_passing passing.reads
    · exact fun _ => checkModbus_passing lib io.check passing
  · exact fun config _ t passing => clearSchedule_passing passing.reads

theorem processTtyInfo_passing (io : StartIo) : Keeps Passing (processTtyInfo io) := by
  refine .bind (.guard _ _) fun _ => .bind (.guard _ _) fun _ => .bind (.orAbort _) fun millis => ?_
  refine .bind (.modify ?_) fun _ => .bind (.guard _ _) fun _ => .guard _ _
  exact fun s passing => passing.of_same rfl rfl rfl rfl rfl id

theorem step_passing (lib : ParseLib) (d : Daemon) (input : Input) (passing : Passing d.sys) :
    Passing (d.step lib input).sys := by
  obtain ⟨s, ctl, clock⟩ := d
  cases ctl <;> cases input <;> try exact passing
  case restart.start io =>
    unfold Daemon.step
    simp only
    split
    · exact processTtyInfo_passing io s passing
    · exact passing
  case loop.loop io =>
    exact ttyMainLoop_passing lib io passing

theorem passOf_count {ids : List TtyIdInfo} {read : TtyIdInfo × Kind} (member : read ∈ passOf ids) :
    0 < read.1.count read.2 := by
  obtain ⟨idInfo, _, either⟩ := List.mem_flatMap.mp member
  have positive : ∀ kind, read ∈ readOf idInfo kind → 0 < read.1.count read.2 := by
    intro kind isRead
    unfold readOf at isRead
    split at isRead
    · rw [List.mem_singleton.mp isRead]
      assumption
    · cases isRead
  rcases List.mem_append.mp either with holding | input
  · exact positive .holding holding
  · exact positive .input input

/-- With nothing to read the iterator's recursion runs to the end of the list. -/
theorem getNextIdInfo_ends {info : TtyInfo}
    (idle : ∀ idInfo ∈ info.idList, ∀ kind, idInfo.count kind = 0) :
    (getNextIdInfo info).1 = none := by
  have delivers := nextFrom_delivers info.idList info.idListIndex info.idListSubIndex
  cases left : remaining info.idList info.idListIndex info.idListSubIndex with
  | nil =>
      rw [left] at delivers
      exact congrArg Prod.fst delivers
  | cons read later =>
      rw [left] at delivers
      obtain ⟨index, sub, _, _, positive, found, _⟩ := delivers
      rw [idle read.1 (List.mem_of_getElem? found) read.2] at positive
      exact absurd positive (by decide)

/-- What was returned is the beginning of a repetition of one pass and a null;
each returned device led to one call, which selected the prescribed read of a
non-zero count, and the registers that were read are those that their call selected;
the position is in the list or at its start; and the iterator ends with null when no
device has a read. -/
structure ExactPasses (s : Sys) : Prop where
  repeats : ∃ passes, resultsSince s.trace <+: (List.replicate passes (cycleOf s.info.idList)).flatten
  calls : callsSince s.trace = (resultsSince s.trace).reduceOption
  counts : ∀ idInfo kind, (idInfo, kind) ∈ callsSince s.trace →
    ∃ selected, kind = some selected ∧ 0 < idInfo.count selected
  reads : ReadsSelected s.trace
  inside : s.info.idListIndex < s.info.idList.length ∨
    (s.info.idListIndex = 0 ∧ s.info.idListSubIndex = 0)
  ends : (∀ idInfo ∈ s.info.idList, ∀ kind, idInfo.count kind = 0) →
    (getNextIdInfo s.info).1 = none

theorem Passing.exact {s : Sys} (passing : Passing s) : ExactPasses s := by
  obtain ⟨⟨passes, whole⟩, calls, reads, inside⟩ := passing
  refine ⟨⟨passes, _, whole⟩, calls, ?_, reads, inside, getNextIdInfo_ends⟩
  intro idInfo kind member
  have returned : some (idInfo, kind) ∈ (List.replicate passes (cycleOf s.info.idList)).flatten := by
    rw [← whole]
    apply List.mem_append_left
    rw [calls] at member
    exact List.reduceOption_mem_iff.mp member
  obtain ⟨cycle, isCycle, inCycle⟩ := List.mem_flatten.mp returned
  rw [List.eq_of_mem_replicate isCycle] at inCycle
  rcases List.mem_append.mp inCycle with inPass | null
  · obtain ⟨read, isRead, same⟩ := List.mem_map.mp inPass
    cases same
    exact ⟨read.2, rfl, passOf_count isRead⟩
  · cases List.mem_singleton.mp null

/-- Passes are exact in every state that a run reaches. -/
theorem passes_exact (lib : ParseLib) (config : Config) (clock : Int) (inputs : List Input) :
    ExactPasses ((Daemon.initial config clock).run lib inputs).sys := by
  have start : Passing (Daemon.initial config clock).sys := initial_passing config
  have passing := Runs.exec_keeps_always (step_passing lib) inputs start
  exact passing.exact

/-- A device with a register of each kind, and one with none. -/
def twoKinds : Config :=
  { listMstime := 1000, idList := [{ id := 1, readCount := 1, readInputCount := 1 }, { id := 2 }] }

/-- A pass of the loop in which a read may be due and the peer takes what is queued. -/
def readPass (now : Int) : Input :=
  .loop { check := checkAt now, poll := .ready false false false, setup := .failed,
          accept := none, peers := [⟨false, true, 0, 14⟩] }

/-- One pass over the devices, and the first read of the next one. -/
def fourResults : List Input :=
  [startUp,
    .loop { check := checkAt 1000, poll := .ready false false true, setup := .failed,
            accept := some 5, peers := [] },
    readPass 2000, readPass 3000, readPass 4000, readPass 5000]

example : resultsSince ((Daemon.initial twoKinds 0).run reference fourResults).sys.trace =
    [some (⟨1, 0, 1, 0, 1⟩, some .holding), some (⟨1, 0, 1, 0, 1⟩, some .input), none,
      some (⟨1, 0, 1, 0, 1⟩, some .holding)] := by decide +kernel

end RenogyX10.TtyReader
