import MailDock.Lib.Segments
import MailDock.Manifest.TornTail

/-!
# Monthly files

`ManifestWriter` over any number of openings and `read_all_events` over the files it
leaves.  An event goes to the file of the month of its time stamp; the reader takes
the files in the order of their names and wants the checkpoints to increase over all
of them.
-/

namespace MailDock.Wire

variable {rt : Runtime}

/-- The files `events-*.jsonl` of an account, sorted by name. -/
abbrev Files := List (String × List UInt8)

/-- `_path_for`. -/
def pathFor (month : String) : String := "events-" ++ month ++ ".jsonl"

/-- The file an event is written to. -/
def fileOf (rt : Runtime) (payload : Dict) : String :=
  match parseTimestamp rt (payload.get "timestamp") with
  | .ok month => pathFor month
  | .error _ => ""

/-- `path.open("ab")` and a write. -/
def appendTo (name : String) (line : List UInt8) : Files → Files
  | [] => [(name,line)]
  | (other,content) :: files =>
    if name < other then (name,line) :: (other,content) :: files
    else if name = other then (other,content ++ line) :: files
    else (other,content) :: appendTo name line files

/-- The check of `read_all_events` on the events a file yields. -/
def checkSequences (last : Option Int) : List Dict → List Dict × Except Raised (Option Int)
  | [] => ([],.ok last)
  | event :: events =>
    match nextSequence last event with
    | .ok next => (event :: (checkSequences next events).1,(checkSequences next events).2)
    | .error _ => ([],.error
        ⟨.manifestCorrupt,"manifest checkpoint sequences are not strictly increasing"⟩)

/-- What reading all files gives: the events that are yielded, an error or the last checkpoint
sequence, and the files afterwards. -/
structure ReadAll where
  yielded : List Dict
  result : Except Raised (Option Int)
  files : Files

/-- `read_all_events` to its end. -/
def readAllEvents (rt : Runtime) (last : Option Int) : Files → ReadAll
  | [] => ⟨[],.ok last,[]⟩
  | (name,content) :: files =>
    match checkSequences last (readEvents rt content).1 with
    | (seen,.error raised) => ⟨seen,.error raised,(name,content) :: files⟩
    | (seen,.ok next) =>
      match (readEvents rt content).2 with
      | .error raised => ⟨seen,.error raised,(name,content) :: files⟩
      | .ok truncateAt =>
        ⟨seen ++ (readAllEvents rt next files).yielded,(readAllEvents rt next files).result,
          (name,LineLog.cut content truncateAt) :: (readAllEvents rt next files).files⟩

/-- `ManifestWriter.__init__`: the last checkpoint sequence is recovered from the files. -/
def openWriter (rt : Runtime) (files : Files) : Except Raised (Option Int × Files) :=
  match (readAllEvents rt none files).result with
  | .error raised => .error raised
  | .ok last => .ok (last,(readAllEvents rt none files).files)

/-- The events of one writer. -/
def writeEvents (rt : Runtime) : Option Int → Files → List (Event rt) →
    Except Raised Files
  | _, files, [] => .ok files
  | last, files, e :: es =>
    match append rt last e.fields with
    | .error raised => .error raised
    | .ok (next,month,line) => writeEvents rt next (appendTo (pathFor month) line files) es

/-- One writer after the other: each is opened, accepts its events and is closed. -/
def runWriters (rt : Runtime) : Files → List (List (Event rt)) → Except Raised Files
  | files, [] => .ok files
  | files, events :: sessions =>
    match openWriter rt files with
    | .error raised => .error raised
    | .ok (last,files) =>
      match writeEvents rt last files events with
      | .error raised => .error raised
      | .ok files => runWriters rt files sessions

/-! ## Checkpoints -/

/-- The sequence of a checkpoint. -/
def sequenceOf (payload : Dict) : Option Int :=
  if eventNameOf payload = some .checkpoint then
    match payload.get "sequence" with
    | some (.int n) => some n
    | _ => none
  else none

/-- The sequences of the checkpoints among the events, in their order. -/
def sequences (events : List Dict) : List Int := events.filterMap sequenceOf

theorem validateCheckpoint_sequence {payload : Dict} (h : validateCheckpoint payload = .ok ()) :
    ∃ n, payload.get "sequence" = some (.int n) ∧ 0 ≤ n := by
  unfold validateCheckpoint at h
  obtain ⟨⟨⟩,-,h⟩ := Except.bind_eq_ok_iff.mp h
  obtain ⟨⟨⟩,-,h⟩ := Except.bind_eq_ok_iff.mp h
  obtain ⟨⟨⟩,-,h⟩ := Except.bind_eq_ok_iff.mp h
  obtain ⟨n,hn,-⟩ := Except.bind_eq_ok_iff.mp h
  unfold validateCheckpointSequence at hn
  split at hn
  · rename_i m hget
    split at hn
    · cases hn
    · rename_i hneg
      exact ⟨m,hget,not_lt.mp hneg⟩
  · cases hn

/-- The next sequence of a valid event. -/
theorem nextSequence_valid {payload : Dict} (h : validateEvent rt payload = .ok ())
    (last : Option Int) :
    (sequenceOf payload = none ∧ nextSequence last payload = .ok last) ∨
    ∃ n, sequenceOf payload = some n ∧
      ((∀ p ∈ last, p < n) ∧ nextSequence last payload = .ok (some n) ∨
        (∃ p ∈ last, n ≤ p) ∧ ∃ raised, nextSequence last payload = .error raised) := by
  by_cases hcheckpoint : eventNameOf payload = some .checkpoint
  · right
    have hvalid : validateCheckpoint payload = .ok () := by
      unfold validateEvent at h
      rw [hcheckpoint] at h
      obtain ⟨month,-,h⟩ := Except.bind_eq_ok_iff.mp h
      exact h
    obtain ⟨n,hget,hn⟩ := validateCheckpoint_sequence hvalid
    refine ⟨n,?_,?_⟩
    · rw [sequenceOf,if_pos hcheckpoint,hget]
    · rw [nextSequence,if_pos hcheckpoint,hget,validateCheckpointSequence,if_neg (not_lt.mpr hn)]
      by_cases hprevious : ∃ p ∈ last, n ≤ p
      · right
        rw [if_pos hprevious]
        exact ⟨hprevious,_,rfl⟩
      · left
        rw [if_neg hprevious]
        exact ⟨fun p hp => lt_of_not_ge fun hle => hprevious ⟨p,hp,hle⟩,rfl⟩
  · left
    rw [sequenceOf,if_neg hcheckpoint,nextSequence,if_neg hcheckpoint]
    exact ⟨rfl,rfl⟩

/-- Of increasing sequences only the last one matters for what comes after them. -/
theorem pairwise_append_iff {xs rest : List Int} (hxs : xs.Pairwise (· < ·)) :
    (xs ++ rest).Pairwise (· < ·) ↔ (xs.getLast?.toList ++ rest).Pairwise (· < ·) := by
  obtain rfl | ⟨ys,p,rfl⟩ := List.eq_nil_or_concat xs
  · exact Iff.rfl
  · rw [List.concat_eq_append] at hxs ⊢
    rw [List.getLast?_concat,List.append_assoc]
    refine ⟨fun hall => (List.pairwise_append.mp hall).2.1,fun hrest => ?_⟩
    refine List.pairwise_append.mpr ⟨(List.pairwise_append.mp hxs).1,hrest,?_⟩
    intro m hm n hn
    have hmp := (List.pairwise_append.mp hxs).2.2 m hm p (List.mem_singleton.mpr rfl)
    obtain rfl | hn := List.mem_cons.mp hn
    · exact hmp
    · exact lt_trans hmp ((List.pairwise_cons.mp hrest).1 n hn)

theorem getLast_append {xs rest : List Int} :
    (xs ++ rest).getLast? = (xs.getLast?.toList ++ rest).getLast? := by
  rw [List.getLast?_append,List.getLast?_append]
  cases xs.getLast? with
  | none => rfl
  | some p => rfl

theorem pairwise_last_iff {last : Option Int} {n : Int} {rest : List Int}
    (h : ∀ p ∈ last, p < n) :
    (last.toList ++ n :: rest).Pairwise (· < ·) ↔ (n :: rest).Pairwise (· < ·) := by
  have hlast : (last.toList ++ [n]).Pairwise (· < ·) := by
    refine List.pairwise_append.mpr ⟨?_,List.pairwise_singleton _ n,?_⟩
    · cases last with
      | none => exact List.Pairwise.nil
      | some p => exact List.pairwise_singleton _ p
    · intro p hp m hm
      rw [List.mem_singleton.mp hm]
      exact h p (Option.mem_toList.mp hp)
  have hiff : (last.toList ++ [n] ++ rest).Pairwise (· < ·) ↔ _ := pairwise_append_iff hlast
  rw [List.getLast?_concat,List.append_assoc] at hiff
  exact hiff

/-- The check over a list of valid events passes exactly when their checkpoints increase. -/
theorem checkSequences_spec {events : List Dict}
    (hvalid : ∀ e ∈ events, validateEvent rt e = .ok ()) (last : Option Int) :
    ((last.toList ++ sequences events).Pairwise (· < ·) ∧ checkSequences last events =
      (events,.ok (last.toList ++ sequences events).getLast?)) ∨
    (¬ (last.toList ++ sequences events).Pairwise (· < ·) ∧
      ∃ raised, (checkSequences last events).2 = .error raised) := by
  induction events generalizing last with
  | nil =>
    left
    cases last with
    | none => exact ⟨List.Pairwise.nil,rfl⟩
    | some p => exact ⟨List.pairwise_singleton _ p,rfl⟩
  | cons e es ih =>
    have hes : ∀ e ∈ es, validateEvent rt e = .ok () := fun a ha =>
      hvalid a (List.mem_cons_of_mem e ha)
    obtain ⟨hnone,hnext⟩ | ⟨n,hsome,hcases⟩ := nextSequence_valid (hvalid e List.mem_cons_self) last
    · have hsequences : sequences (e :: es) = sequences es := List.filterMap_cons_none hnone
      rw [hsequences,checkSequences,hnext]
      obtain ⟨hincreasing,heq⟩ | ⟨hnot,raised,heq⟩ := ih hes last
      · exact .inl ⟨hincreasing,by simp only [heq]⟩
      · exact .inr ⟨hnot,raised,heq⟩
    · have hsequences : sequences (e :: es) = n :: sequences es := List.filterMap_cons_some hsome
      rw [hsequences,checkSequences]
      obtain ⟨hlast,hnext⟩ | ⟨⟨p,hp,hle⟩,raised,hnext⟩ := hcases
      · rw [hnext,pairwise_last_iff hlast]
        obtain ⟨hincreasing,heq⟩ | ⟨hnot,raised,heq⟩ := ih hes (some n)
        · refine .inl ⟨hincreasing,?_⟩
          have hlength : (last.toList ++ n :: sequences es).getLast? =
              (n :: sequences es).getLast? := List.getLast?_append_of_ne_nil _ (List.cons_ne_nil _ _)
          rw [hlength]
          simp only [heq]
          rfl
        · exact .inr ⟨hnot,raised,heq⟩
      · right
        rw [hnext]
        refine ⟨fun hall => ?_,_,rfl⟩
        have hlt := (List.pairwise_append.mp hall).2.2 p (Option.mem_toList.mpr hp) n
          List.mem_cons_self
        omega

/-! ## Complete files -/

/-- `_encode_event` writes the event. -/
def Writable (rt : Runtime) (payload : Dict) : Prop :=
  validateEvent rt payload = .ok () ∧ Json.dumpError (.obj payload) = none

theorem accepts_of_increasing {events : List (Event rt)} {seen : Option Int}
    (hwritable : ∀ e ∈ events, Writable rt e.fields)
    (hincreasing : (seen.toList ++ sequences (events.map Event.fields)).Pairwise (· < ·)) :
    LineLog.Accepts (readLine rt) encodeLine seen (events.map Event.fields) := by
  induction events generalizing seen with
  | nil => trivial
  | cons e es ih =>
    obtain ⟨hvalid,hdump⟩ := hwritable e List.mem_cons_self
    have hes : ∀ e ∈ es, Writable rt e.fields := fun a ha =>
      hwritable a (List.mem_cons_of_mem e ha)
    have hparse : parseLine rt (encodeLine e.fields) = .ok e.fields :=
      parseLineOf_encodeLine (has_of_isStr (validateEvent_isStr hvalid)) hdump hvalid
    have hread : ∀ {next}, nextSequence seen e.fields = .ok next →
        readLine rt seen (encodeLine e.fields) = .accept next e.fields := by
      intro next hnext
      rw [readLine,hparse]
      simp only [verdictOf,hnext]
    rw [List.map_cons] at hincreasing
    obtain ⟨hnone,hnext⟩ | ⟨n,hsome,hcases⟩ := nextSequence_valid hvalid seen
    · have hsequences : sequences (e.fields :: es.map Event.fields) =
          sequences (es.map Event.fields) := List.filterMap_cons_none hnone
      rw [hsequences] at hincreasing
      exact ⟨seen,hread hnext,ih hes hincreasing⟩
    · have hsequences : sequences (e.fields :: es.map Event.fields) =
          n :: sequences (es.map Event.fields) := List.filterMap_cons_some hsome
      rw [hsequences] at hincreasing
      obtain ⟨hlast,hnext⟩ | ⟨⟨p,hp,hle⟩,-⟩ := hcases
      · exact ⟨some n,hread hnext,ih hes ((pairwise_last_iff hlast).mp hincreasing)⟩
      · have hlt := (List.pairwise_append.mp hincreasing).2.2 p (Option.mem_toList.mpr hp) n
          List.mem_cons_self
        omega

/-- A file whose lines are all complete is read to its end and left as it is. -/
theorem readEvents_complete {events : List (Event rt)}
    (hwritable : ∀ e ∈ events, Writable rt e.fields)
    (hincreasing : (sequences (events.map Event.fields)).Pairwise (· < ·)) :
    readEvents rt ((events.map Event.fields).flatMap encodeLine) =
      (events.map Event.fields,.ok none) := by
  have hlines : ∀ r ∈ events.map Event.fields, LineLog.IsLine newline (encodeLine r) := by
    intro r hr
    obtain ⟨e,-,rfl⟩ := List.mem_map.mp hr
    exact encodeLine_isLine e
  have htorn : ∀ state line, newline ∉ line → ∃ e, readLine rt state line = .malformed e := by
    intro state line hline
    rw [readLine,parseLine,parseLineOf_torn _ _ hline]
    exact ⟨_,rfl⟩
  have hall : LineLog.Survive encodeLine (events.map Event.fields)
      ((events.map Event.fields).flatMap encodeLine).length (events.map Event.fields) := by
    refine ⟨List.prefix_refl _,le_refl _,?_⟩
    intro r hr
    have hlength := hr.length_le
    rw [List.length_append,List.length_singleton] at hlength
    omega
  have haccepts : LineLog.Accepts (readLine rt) encodeLine none (events.map Event.fields) :=
    accepts_of_increasing hwritable hincreasing
  have hread := LineLog.walk_take 0 hlines haccepts htorn hall
  rw [List.take_length,if_neg (lt_irrefl _)] at hread
  exact hread

/-- Files that are read to their ends: only the check over all of them is left. -/
theorem readAllEvents_complete {files : Files} {contents : String × List UInt8 → List Dict}
    (h : ∀ f ∈ files, readEvents rt f.2 = (contents f,.ok none))
    (hvalid : ∀ f ∈ files, ∀ e ∈ contents f, validateEvent rt e = .ok ()) (last : Option Int) :
    ((last.toList ++ sequences (files.flatMap contents)).Pairwise (· < ·) ∧
      readAllEvents rt last files = ⟨files.flatMap contents,
        .ok (last.toList ++ sequences (files.flatMap contents)).getLast?,files⟩) ∨
    (¬ (last.toList ++ sequences (files.flatMap contents)).Pairwise (· < ·) ∧
      ∃ raised, (readAllEvents rt last files).result = .error raised) := by
  induction files generalizing last with
  | nil =>
    left
    cases last with
    | none => exact ⟨List.Pairwise.nil,rfl⟩
    | some p => exact ⟨List.pairwise_singleton _ p,rfl⟩
  | cons f files ih =>
    obtain ⟨name,content⟩ := f
    have hread := h (name,content) List.mem_cons_self
    dsimp only at hread
    have hsplit : last.toList ++ sequences (List.flatMap contents ((name,content) :: files)) =
        (last.toList ++ sequences (contents (name,content))) ++
          sequences (files.flatMap contents) := by
      rw [List.flatMap_cons,sequences,sequences,sequences,List.filterMap_append,List.append_assoc]
    have hcheck := checkSequences_spec (hvalid (name,content) List.mem_cons_self) last
    rw [hsplit,readAllEvents,hread]
    dsimp only
    obtain ⟨hfirst,heq⟩ | ⟨hnot,raised,heq⟩ := hcheck
    · rw [pairwise_append_iff hfirst]
      simp only [heq]
      obtain ⟨hincreasing,hrest⟩ | ⟨hnot,raised,hrest⟩ := ih
        (fun g hg => h g (List.mem_cons_of_mem _ hg))
        (fun g hg => hvalid g (List.mem_cons_of_mem _ hg))
        (last.toList ++ sequences (contents (name,content))).getLast?
      · refine .inl ⟨hincreasing,?_⟩
        rw [hrest,List.flatMap_cons,← getLast_append]
        rfl
      · exact .inr ⟨hnot,raised,hrest⟩
    · right
      refine ⟨fun hall => hnot (List.pairwise_append.mp hall).1,raised,?_⟩
      cases hpair : checkSequences last (contents (name,content)) with
      | mk seen result =>
        rw [hpair] at heq
        dsimp only at heq
        rw [heq]

/-! ## The files of a history -/

/-- The events that were appended, in the files they belong to. -/
structure Stored (rt : Runtime) (files : Files) (appended : List (Event rt)) : Prop where
  sorted : (files.map Prod.fst).Pairwise (· < ·)
  content : ∀ f ∈ files, f.2 =
    ((appended.map Event.fields).filter fun e => fileOf rt e = f.1).flatMap encodeLine
  covers : ∀ e ∈ appended, fileOf rt e.fields ∈ files.map Prod.fst
  writable : ∀ e ∈ appended, Writable rt e.fields
  increasing : (sequences (appended.map Event.fields)).Pairwise (· < ·)

theorem Stored.empty : Stored rt [] [] where
  sorted := List.Pairwise.nil
  content f hf := by cases hf
  covers e he := by cases he
  writable e he := by cases he
  increasing := List.Pairwise.nil

variable {files : Files} {appended : List (Event rt)}

theorem filter_map_fields (p : Dict → Bool) : (appended.map Event.fields).filter p =
    (appended.filter fun e => p e.fields).map Event.fields := by
  rw [List.filter_map]
  rfl

/-- A file of the history is read to its end. -/
theorem Stored.readEvents (h : Stored rt files appended) {f : String × List UInt8}
    (hf : f ∈ files) : readEvents rt f.2 =
      ((appended.map Event.fields).filter fun e => fileOf rt e = f.1,.ok none) := by
  rw [h.content f hf,filter_map_fields]
  refine readEvents_complete (fun e he => h.writable e (List.mem_filter.mp he).1) ?_
  rw [← filter_map_fields fun e => fileOf rt e = f.1]
  exact h.increasing.sublist (List.filter_sublist.filterMap sequenceOf)

/-- What reading the files of a history gives. -/
theorem Stored.readAllEvents (h : Stored rt files appended) :
    ((sequences (Segments.regroup (fileOf rt) (files.map Prod.fst)
        (appended.map Event.fields))).Pairwise (· < ·) ∧
      readAllEvents rt none files = ⟨Segments.regroup (fileOf rt) (files.map Prod.fst)
        (appended.map Event.fields),.ok (sequences (Segments.regroup (fileOf rt)
        (files.map Prod.fst) (appended.map Event.fields))).getLast?,files⟩) ∨
    (¬ (sequences (Segments.regroup (fileOf rt) (files.map Prod.fst)
        (appended.map Event.fields))).Pairwise (· < ·) ∧
      ∃ raised, (readAllEvents rt none files).result = .error raised) := by
  have hflat : Segments.regroup (fileOf rt) (files.map Prod.fst) (appended.map Event.fields) =
      files.flatMap fun f => (appended.map Event.fields).filter fun e => fileOf rt e = f.1 :=
    List.flatMap_map ..
  rw [hflat]
  refine readAllEvents_complete (fun f hf => h.readEvents hf) ?_ none
  intro f hf e he
  obtain ⟨a,ha,rfl⟩ := List.mem_map.mp (List.mem_filter.mp he).1
  exact (h.writable a ha).1

/-- The checkpoints of a history, in the order they were appended. -/
def checkpoints (events : List Dict) : List Dict :=
  events.filter fun e => (sequenceOf e).isSome

theorem sequences_checkpoints (events : List Dict) :
    sequences (checkpoints events) = sequences events := by
  induction events with
  | nil => rfl
  | cons e es ih =>
    cases hsequence : sequenceOf e with
    | none =>
      rw [checkpoints,List.filter_cons_of_neg (by rw [hsequence]; decide)]
      exact ih.trans (List.filterMap_cons_none hsequence).symm
    | some n =>
      rw [checkpoints,List.filter_cons_of_pos (by rw [hsequence]; rfl)]
      refine (List.filterMap_cons_some hsequence).trans ?_
      refine Eq.trans ?_ (List.filterMap_cons_some hsequence).symm
      exact congrArg (n :: ·) ih

/-- The order of the checkpoints by their sequences. -/
def Below (a b : Dict) : Prop :=
  ∀ m, sequenceOf a = some m → ∀ n, sequenceOf b = some n → m < n

theorem sequences_pairwise_iff {events : List Dict} :
    (sequences events).Pairwise (· < ·) ↔ (checkpoints events).Pairwise Below := by
  rw [← sequences_checkpoints]
  exact List.pairwise_filterMap

theorem Below.asymm {events : List Dict} : ∀ a ∈ checkpoints events, ∀ b ∈ checkpoints events,
    Below a b → ¬ Below b a := by
  intro a ha b hb hab hba
  obtain ⟨m,hm⟩ := Option.isSome_iff_exists.mp (List.mem_filter.mp ha).2
  obtain ⟨n,hn⟩ := Option.isSome_iff_exists.mp (List.mem_filter.mp hb).2
  exact lt_asymm (hab m hm n hn) (hba n hn m hm)

theorem checkpoints_regroup {names : List String} {events : List Dict} :
    checkpoints (Segments.regroup (fileOf rt) names events) =
      Segments.regroup (fileOf rt) names (checkpoints events) :=
  Segments.filter_regroup _

/-- The file names of the checkpoints never step back. -/
def FilesInOrder (rt : Runtime) (events : List Dict) : Prop :=
  (checkpoints events).Pairwise fun a b => fileOf rt a ≤ fileOf rt b

theorem Stored.covers_checkpoints (h : Stored rt files appended) :
    ∀ e ∈ checkpoints (appended.map Event.fields), fileOf rt e ∈ files.map Prod.fst := by
  intro e he
  obtain ⟨a,ha,rfl⟩ := List.mem_map.mp (List.mem_filter.mp he).1
  exact h.covers a ha

/-- The files can be read exactly when the checkpoints are in the order of the files. -/
theorem Stored.increasing_iff (h : Stored rt files appended) :
    (sequences (Segments.regroup (fileOf rt) (files.map Prod.fst)
      (appended.map Event.fields))).Pairwise (· < ·) ↔
      FilesInOrder rt (appended.map Event.fields) := by
  rw [sequences_pairwise_iff,checkpoints_regroup]
  exact Segments.regroup_pairwise_iff h.sorted h.covers_checkpoints Below.asymm
    (sequences_pairwise_iff.mp h.increasing)

/-- Files in order are read in the order of the appends, as far as the checkpoints go. -/
theorem Stored.sequences_regroup (h : Stored rt files appended)
    (hordered : FilesInOrder rt (appended.map Event.fields)) :
    sequences (Segments.regroup (fileOf rt) (files.map Prod.fst) (appended.map Event.fields)) =
      sequences (appended.map Event.fields) := by
  rw [← sequences_checkpoints,checkpoints_regroup,Segments.regroup_eq_self h.sorted
    h.covers_checkpoints Below.asymm (sequences_pairwise_iff.mp h.increasing) hordered,
    sequences_checkpoints]

/-! ## One more event -/

variable {name : String} {line : List UInt8}

theorem mem_names_appendTo {other : String} :
    other ∈ (appendTo name line files).map Prod.fst ↔
      other = name ∨ other ∈ files.map Prod.fst := by
  induction files with
  | nil => simp [appendTo]
  | cons f files ih =>
    obtain ⟨n,content⟩ := f
    rw [appendTo]
    split_ifs with hlt heq
    · simp
    · simp [heq]
    · rw [List.map_cons,List.mem_cons,ih,List.map_cons,List.mem_cons]
      tauto

theorem sorted_appendTo (h : (files.map Prod.fst).Pairwise (· < ·)) :
    ((appendTo name line files).map Prod.fst).Pairwise (· < ·) := by
  induction files with
  | nil => exact List.pairwise_singleton _ name
  | cons f files ih =>
    obtain ⟨n,content⟩ := f
    obtain ⟨hn,hfiles⟩ := List.pairwise_cons.mp h
    rw [appendTo]
    split_ifs with hlt heq
    · refine List.pairwise_cons.mpr ⟨?_,h⟩
      intro other hother
      obtain rfl | hother := List.mem_cons.mp hother
      · exact hlt
      · exact lt_trans hlt (hn other hother)
    · exact h
    · refine List.pairwise_cons.mpr ⟨?_,ih hfiles⟩
      intro other hother
      obtain rfl | hother := mem_names_appendTo.mp hother
      · exact lt_of_le_of_ne (not_lt.mp hlt) (Ne.symm heq)
      · exact hn other hother

/-- The other files stay as they are. -/
theorem mem_appendTo (h : (files.map Prod.fst).Pairwise (· < ·)) {f : String × List UInt8}
    (hf : f ∈ appendTo name line files) :
    (f.1 ≠ name ∧ f ∈ files) ∨ (f.1 = name ∧ ∃ content, f.2 = content ++ line ∧
      ((name,content) ∈ files ∨ content = [] ∧ name ∉ files.map Prod.fst)) := by
  induction files with
  | nil =>
    rw [appendTo,List.mem_singleton] at hf
    exact .inr ⟨by rw [hf],[],by rw [hf]; rfl,.inr ⟨rfl,List.not_mem_nil⟩⟩
  | cons g files ih =>
    obtain ⟨n,content⟩ := g
    obtain ⟨hn,hfiles⟩ := List.pairwise_cons.mp h
    rw [appendTo] at hf
    split_ifs at hf with hlt heq
    · have hnew : name ∉ List.map Prod.fst ((n,content) :: files) := by
        intro hmem
        obtain rfl | hmem := List.mem_cons.mp hmem
        · exact lt_irrefl _ hlt
        · exact lt_asymm hlt (hn name hmem)
      obtain rfl | hf := List.mem_cons.mp hf
      · exact .inr ⟨rfl,[],rfl,.inr ⟨rfl,hnew⟩⟩
      · exact .inl ⟨fun heq => hnew (heq ▸ List.mem_map_of_mem hf),hf⟩
    · obtain rfl | hf := List.mem_cons.mp hf
      · exact .inr ⟨heq.symm,content,rfl,.inl (heq ▸ List.mem_cons_self)⟩
      · refine .inl ⟨fun hname => ?_,List.mem_cons_of_mem _ hf⟩
        have hlt' := hn f.1 (List.mem_map_of_mem hf)
        exact lt_irrefl _ (hname.trans heq ▸ hlt')
    · obtain rfl | hf := List.mem_cons.mp hf
      · exact .inl ⟨Ne.symm heq,List.mem_cons_self⟩
      · obtain ⟨hne,hmem⟩ | ⟨hname,content',hcontent,hmem⟩ := ih hfiles hf
        · exact .inl ⟨hne,List.mem_cons_of_mem _ hmem⟩
        · refine .inr ⟨hname,content',hcontent,hmem.imp (List.mem_cons_of_mem _) ?_⟩
          rintro ⟨hnil,hnot⟩
          exact ⟨hnil,fun hmem => (List.mem_cons.mp hmem).elim heq hnot⟩

/-- The last checkpoint a writer knows is the last one of the history. -/
def lastSequence (events : List Dict) : Option Int := (sequences events).getLast?

theorem Stored.append {last next : Option Int} {month : String} {e : Event rt}
    (h : Stored rt files appended) (hlast : last = lastSequence (appended.map Event.fields))
    (happend : append rt last e.fields = .ok (next,month,line)) :
    Stored rt (appendTo (pathFor month) line files) (appended ++ [e]) ∧
      next = lastSequence ((appended ++ [e]).map Event.fields) := by
  obtain ⟨hencode,hmonth,hnext⟩ := append_eq_ok happend
  obtain ⟨hvalid,hdump,rfl⟩ := encodeEvent_eq_ok hencode
  have hfile : fileOf rt e.fields = pathFor month := by
    rw [fileOf,hmonth]
  have hmap : (appended ++ [e]).map Event.fields = appended.map Event.fields ++ [e.fields] :=
    List.map_append
  have hsequences : sequences ((appended ++ [e]).map Event.fields) =
      sequences (appended.map Event.fields) ++ (sequenceOf e.fields).toList := by
    rw [hmap,sequences,List.filterMap_append]
    refine congrArg (_ ++ ·) ?_
    cases hsequence : sequenceOf e.fields with
    | none => exact List.filterMap_cons_none hsequence
    | some n => exact List.filterMap_cons_some hsequence
  -- the checkpoint, if it is one, is above the last one
  have horder : (sequences ((appended ++ [e]).map Event.fields)).Pairwise (· < ·) ∧
      next = lastSequence ((appended ++ [e]).map Event.fields) := by
    rw [lastSequence,hsequences]
    obtain ⟨hnone,hkept⟩ | ⟨n,hsome,hcases⟩ := nextSequence_valid hvalid last
    · rw [hnone,Option.toList_none,List.append_nil]
      rw [hnext] at hkept
      exact ⟨h.increasing,(Except.ok.inj hkept).trans hlast⟩
    · obtain ⟨habove,hsucc⟩ | ⟨-,raised,hfails⟩ := hcases
      · rw [hsome,Option.toList_some,pairwise_append_iff h.increasing,List.getLast?_concat]
        rw [hnext] at hsucc
        refine ⟨?_,Except.ok.inj hsucc⟩
        rw [hlast] at habove
        exact (pairwise_last_iff habove).mpr (List.pairwise_singleton _ n)
      · rw [hnext] at hfails
        cases hfails
  have hfilter : ∀ name, ((appended ++ [e]).map Event.fields).filter (fun e => fileOf rt e = name) =
      (appended.map Event.fields).filter (fun e => fileOf rt e = name) ++
        if pathFor month = name then [e.fields] else [] := by
    intro name
    rw [hmap,List.filter_append,List.filter_singleton,hfile]
    congr 1
    by_cases heq : pathFor month = name
    · rw [decide_eq_true heq,if_pos heq]
      rfl
    · rw [decide_eq_false heq,if_neg heq]
      rfl
  refine ⟨⟨sorted_appendTo h.sorted,?_,?_,?_,horder.1⟩,horder.2⟩
  · intro f hf
    rw [hfilter f.1,List.flatMap_append]
    obtain ⟨hne,hmem⟩ | ⟨hname,content,hcontent,hmem⟩ := mem_appendTo h.sorted hf
    · rw [if_neg (Ne.symm hne),← h.content f hmem]
      exact (List.append_nil f.2).symm
    · rw [hname,if_pos rfl,hcontent]
      obtain hmem | ⟨rfl,hnew⟩ := hmem
      · rw [← h.content _ hmem]
        simp
      · have hnone : (appended.map Event.fields).filter (fun e => fileOf rt e = pathFor month) =
            [] := by
          rw [List.filter_eq_nil_iff]
          intro a ha heq
          obtain ⟨b,hb,rfl⟩ := List.mem_map.mp ha
          exact hnew (of_decide_eq_true heq ▸ h.covers b hb)
        rw [hnone]
        simp
  · intro a ha
    rw [mem_names_appendTo]
    obtain ha | ha := List.mem_append.mp ha
    · exact .inr (h.covers a ha)
    · rw [List.mem_singleton.mp ha]
      exact .inl hfile
  · intro a ha
    obtain ha | ha := List.mem_append.mp ha
    · exact h.writable a ha
    · rw [List.mem_singleton.mp ha]
      exact ⟨hvalid,hdump⟩

theorem Stored.writeEvents {last : Option Int} {events : List (Event rt)} {files' : Files}
    (h : Stored rt files appended) (hlast : last = lastSequence (appended.map Event.fields))
    (hwrite : writeEvents rt last files events = .ok files') :
    Stored rt files' (appended ++ events) := by
  induction events generalizing last files appended with
  | nil =>
    rw [Wire.writeEvents] at hwrite
    rw [← Except.ok.inj hwrite,List.append_nil]
    exact h
  | cons e es ih =>
    rw [Wire.writeEvents] at hwrite
    split at hwrite
    · cases hwrite
    · rename_i next month line happend
      obtain ⟨hstored,hnext⟩ := h.append hlast happend
      rw [List.append_cons]
      exact ih hstored hnext hwrite

/-- A writer that can be opened knows the last checkpoint that was appended. -/
theorem Stored.openWriter {last : Option Int} {files' : Files} (h : Stored rt files appended)
    (hopen : openWriter rt files = .ok (last,files')) :
    files' = files ∧ last = lastSequence (appended.map Event.fields) := by
  obtain ⟨hincreasing,hread⟩ | ⟨-,raised,hread⟩ := h.readAllEvents
  · rw [Wire.openWriter,hread] at hopen
    have heq := Prod.mk.inj (Except.ok.inj hopen)
    refine ⟨heq.2.symm,?_⟩
    rw [← heq.1,h.sequences_regroup (h.increasing_iff.mp hincreasing)]
    rfl
  · rw [Wire.openWriter,hread] at hopen
    cases hopen

theorem Stored.runWriters {sessions : List (List (Event rt))} {files' : Files}
    (h : Stored rt files appended) (hrun : runWriters rt files sessions = .ok files') :
    Stored rt files' (appended ++ sessions.flatten) := by
  induction sessions generalizing files appended with
  | nil =>
    rw [Wire.runWriters] at hrun
    rw [← Except.ok.inj hrun,List.flatten_nil,List.append_nil]
    exact h
  | cons events sessions ih =>
    rw [Wire.runWriters] at hrun
    split at hrun
    · cases hrun
    · rename_i last files₁ hopen
      obtain ⟨rfl,hlast⟩ := h.openWriter hopen
      split at hrun
      · cases hrun
      · rename_i files₂ hwrite
        rw [List.flatten_cons,← List.append_assoc]
        exact ih (h.writeEvents hlast hwrite) hrun

/-! ## Writing and reading agree -/

/-- All events are read, each once and in the order of the appends inside its file, and a writer
opened on the files continues after the last checkpoint. -/
structure Agrees (rt : Runtime) (events : List Dict) (files : Files) : Prop where
  reads : ∃ yielded, readAllEvents rt none files = ⟨yielded,.ok (lastSequence events),files⟩ ∧
    yielded.Perm events ∧
    ∀ name, (yielded.filter fun e => fileOf rt e = name) = events.filter fun e => fileOf rt e = name
  reopens : openWriter rt files = .ok (lastSequence events,files)

theorem Stored.covers_fields (h : Stored rt files appended) :
    ∀ e ∈ appended.map Event.fields, fileOf rt e ∈ files.map Prod.fst := by
  intro e he
  obtain ⟨a,ha,rfl⟩ := List.mem_map.mp he
  exact h.covers a ha

theorem Stored.agrees (h : Stored rt files appended)
    (hordered : FilesInOrder rt (appended.map Event.fields)) :
    Agrees rt (appended.map Event.fields) files := by
  have hnodup : (files.map Prod.fst).Nodup := h.sorted.imp fun hlt => ne_of_lt hlt
  obtain ⟨-,hread⟩ | ⟨hnot,-⟩ := h.readAllEvents
  · rw [h.sequences_regroup hordered] at hread
    refine ⟨⟨_,hread,Segments.regroup_perm hnodup h.covers_fields,
      Segments.regroup_filter_key hnodup h.covers_fields⟩,?_⟩
    rw [Wire.openWriter,hread]
    rfl
  · exact absurd (h.increasing_iff.mpr hordered) hnot

theorem Stored.inOrder (h : Stored rt files appended)
    (hagrees : Agrees rt (appended.map Event.fields) files) :
    FilesInOrder rt (appended.map Event.fields) := by
  obtain ⟨hincreasing,-⟩ | ⟨-,raised,hread⟩ := h.readAllEvents
  · exact h.increasing_iff.mp hincreasing
  · obtain ⟨yielded,hyielded,-⟩ := hagrees.reads
    rw [hyielded] at hread
    cases hread

/-- Over any number of writers, what they accepted is read back and the next writer continues
after the last checkpoint exactly when no checkpoint goes to a file before that of an earlier
checkpoint. -/
theorem runWriters_agrees_iff {sessions : List (List (Event rt))} {files : Files}
    (h : runWriters rt [] sessions = .ok files) :
    Agrees rt (sessions.flatten.map Event.fields) files ↔
      FilesInOrder rt (sessions.flatten.map Event.fields) :=
  have hstored : Stored rt files sessions.flatten := Stored.empty.runWriters h
  ⟨hstored.inOrder,hstored.agrees⟩

theorem runWriters_append (files : Files) (sessions later : List (List (Event rt))) :
    runWriters rt files (sessions ++ later) =
      (runWriters rt files sessions).bind fun files' => runWriters rt files' later := by
  induction sessions generalizing files with
  | nil => rfl
  | cons events sessions ih =>
    rw [List.cons_append,Wire.runWriters,Wire.runWriters]
    split
    · rfl
    · split
      · rfl
      · exact ih _

/-- Where the checkpoints are in order, a further writer starts after the last one. -/
theorem runWriters_next {sessions : List (List (Event rt))} {files files' : Files}
    {events : List (Event rt)} (h : runWriters rt [] sessions = .ok files)
    (hordered : FilesInOrder rt (sessions.flatten.map Event.fields))
    (hwrite : Wire.writeEvents rt (lastSequence (sessions.flatten.map Event.fields)) files events =
      .ok files') :
    runWriters rt [] (sessions ++ [events]) = .ok files' := by
  have hstored : Stored rt files sessions.flatten := Stored.empty.runWriters h
  have hopen : Wire.openWriter rt files =
      .ok (lastSequence (sessions.flatten.map Event.fields),files) :=
    (hstored.agrees hordered).reopens
  rw [runWriters_append,h]
  simp only [Except.bind,Wire.runWriters,hopen,hwrite]

/-- A runtime that knows a time stamp in January and one in February. -/
def winterRuntime : Runtime where
  floatRepr text := text
  decode _ _ := none
  fromisoformat text :=
    if text = "2026-01-31T23:59:59+00:00" then .utc "202601"
    else if text = "2026-02-01T00:00:00+00:00" then .utc "202602"
    else .invalid
  casefold := String.map Char.toLower
  uuidVersion _ := none
  repr _ := "None"
  sameNumber _ _ := false

def februaryCheckpoint : Event winterRuntime where
  fields := [("account_id",.str "work"),("batch_id",.str "b1"),("event",.str "checkpoint"),
    ("sequence",.int 1),("timestamp",.str "2026-02-01T00:00:00+00:00")]
  canonical := by decide

def januaryCheckpoint : Event winterRuntime where
  fields := [("account_id",.str "work"),("batch_id",.str "b2"),("event",.str "checkpoint"),
    ("sequence",.int 2),("timestamp",.str "2026-01-31T23:59:59+00:00")]
  canonical := by decide

/-- The clock steps back from February to January between two batches of one writer. -/
theorem readAllEvents_rejects_stepped_clock :
    ∃ files, runWriters winterRuntime [] [[februaryCheckpoint,januaryCheckpoint]] = .ok files ∧
      ¬ Agrees winterRuntime [februaryCheckpoint.fields,januaryCheckpoint.fields] files := by
  have hrun : ∃ files, runWriters winterRuntime [] [[februaryCheckpoint,januaryCheckpoint]] =
      .ok files := ⟨_,rfl⟩
  obtain ⟨files,hrun⟩ := hrun
  refine ⟨files,hrun,fun hagrees => ?_⟩
  have hordered := (Stored.empty.runWriters hrun).inOrder hagrees
  revert hordered
  show ¬ List.Pairwise _ _
  decide

def lastOfJanuary : Event winterRuntime where
  fields := [("account_id",.str "work"),("batch_id",.str "b1"),("event",.str "checkpoint"),
    ("sequence",.int 1),("timestamp",.str "2026-01-31T23:59:59+00:00")]
  canonical := by decide

def firstOfFebruary : Event winterRuntime where
  fields := [("account_id",.str "work"),("batch_id",.str "b2"),("event",.str "checkpoint"),
    ("sequence",.int 2),("timestamp",.str "2026-02-01T00:00:00+00:00")]
  canonical := by decide

def secondOfFebruary : Event winterRuntime where
  fields := [("account_id",.str "work"),("batch_id",.str "b3"),("event",.str "checkpoint"),
    ("sequence",.int 3),("timestamp",.str "2026-02-01T00:00:00+00:00")]
  canonical := by decide

/-- The first writer goes on from January into February, the second one goes on in February. -/
theorem runWriters_agrees_two_months :
    ∃ files, runWriters winterRuntime [] [[lastOfJanuary,firstOfFebruary],[secondOfFebruary]] =
        .ok files ∧
      Agrees winterRuntime
        [lastOfJanuary.fields,firstOfFebruary.fields,secondOfFebruary.fields] files := by
  obtain ⟨files,hfirst⟩ : ∃ files,
      runWriters winterRuntime [] [[lastOfJanuary,firstOfFebruary]] = .ok files := ⟨_,rfl⟩
  have hordered : FilesInOrder winterRuntime [lastOfJanuary.fields,firstOfFebruary.fields] := by
    show List.Pairwise _ _
    decide
  obtain ⟨files',hsecond⟩ : ∃ files',
      writeEvents winterRuntime (some 2) files [secondOfFebruary] = .ok files' := ⟨_,rfl⟩
  have hrun : runWriters winterRuntime [] ([[lastOfJanuary,firstOfFebruary]] ++
      [[secondOfFebruary]]) = .ok files' := runWriters_next hfirst hordered hsecond
  refine ⟨files',hrun,(runWriters_agrees_iff hrun).mpr ?_⟩
  show List.Pairwise _ _
  decide

end MailDock.Wire
