import MailDock.Lib.Program
import MailDock.Manifest.PstWire

/-!
# Torn tails

A manifest file that was cut at any byte: what the two readers and the verification
find in it, and where they cut it.
-/

namespace MailDock.Wire

variable {rt : Runtime}

/-! ## The verification of a file -/

/-- `_manifest_line_is_valid`. -/
def manifestLineIsValid (rt : Runtime) (line : List UInt8) : Except Raised Dict :=
  if line.getLast? ≠ some newline then
    .error ⟨.manifestCorrupt,"manifest record is missing its trailing newline"⟩
  else
    match Checksum.rpartition crcSeparator line.dropLast with
    | none => .error ⟨.manifestCorrupt,"manifest record has no valid CRC32 suffix"⟩
    | some (payload,checksum) =>
      if checksum.length ≠ 8 then
        .error ⟨.manifestCorrupt,"manifest record has no valid CRC32 suffix"⟩
      else
        match Checksum.intBase16 checksum with
        | none => .error ⟨.manifestCorrupt,"manifest record has an invalid CRC32 suffix"⟩
        | some expectedChecksum =>
          if ((Checksum.crc32 payload).toNat : Int) ≠ expectedChecksum then
            .error ⟨.manifestCorrupt,"manifest record CRC32 does not match its payload"⟩
          else
            match Json.loads rt.toHost payload with
            | .error .decode => .error ⟨.manifestCorrupt,"manifest record contains invalid JSON"⟩
            | .error .value => .error (dumpRaised .tooManyDigits)
            | .ok (.obj decoded) =>
              if isStr (Dict.get decoded "event") then .ok decoded
              else .error ⟨.manifestCorrupt,"manifest record is not a JSON event object"⟩
            | .ok _ => .error ⟨.manifestCorrupt,"manifest record is not a JSON event object"⟩

def verifyLine (rt : Runtime) (_ : Unit) (line : List UInt8) : LineLog.Verdict Unit Dict Raised :=
  verdictOf (manifestLineIsValid rt line) fun event => .accept () event

/-- The loop of `_verify_manifest_file`. -/
def verifyLines (rt : Runtime) (file : List UInt8) : List Dict × Except Raised (Option Nat) :=
  LineLog.walk (verifyLine rt) () 0 (LineLog.lines newline file)

/-- `_verify_manifest_file`: the records it checked and the bytes it cut off. -/
def verifyManifestFile (rt : Runtime) (file : List UInt8) : Except Raised (Nat × Nat) :=
  match verifyLines rt file with
  | (_,.error raised) => .error raised
  | (records,.ok none) => .ok (records.length,0)
  | (records,.ok (some truncateAt)) => .ok (records.length,file.length - truncateAt)

/-! ## Complete lines -/

theorem has_of_isStr {payload : Dict} {field : String} (h : isStr (payload.get field) = true) :
    payload.has field = true := by
  unfold Dict.has
  cases hget : payload.get field with
  | none =>
    rw [hget] at h
    cases h
  | some v => rfl

theorem newline_not_mem_hex8 {n : Nat} : newline ∉ Checksum.hex8 n := fun h =>
  absurd (Checksum.isHexDigit_of_mem h) (by decide)

theorem encodeLine_isLine (e : Event rt) : LineLog.IsLine newline (encodeLine e.fields) := by
  refine ⟨_,rfl,?_⟩
  have hpayload : newline ∉ encodePayload e.fields :=
    Json.newline_not_mem_utf8Encode (Json.newline_not_mem_dump _ e.canonical)
  rw [List.mem_append,List.mem_append,not_or,not_or]
  exact ⟨⟨hpayload,by decide⟩,newline_not_mem_hex8⟩

theorem encodeLine_getLast (payload : Dict) :
    (encodeLine payload).getLast? = some newline := by
  rw [encodeLine,List.getLast?_concat]

theorem encodeLine_dropLast (payload : Dict) : (encodeLine payload).dropLast =
    encodePayload payload ++ crcSeparator ++
      Checksum.hex8 (Checksum.crc32 (encodePayload payload)).toNat := by
  rw [encodeLine,List.dropLast_concat]

theorem loads_encodePayload {e : Event rt} (hevent : e.fields.has "event" = true)
    (hdump : Json.dumpError (.obj e.fields) = none) :
    Json.loads rt.toHost (encodePayload e.fields) = .ok (.obj e.fields) := by
  obtain ⟨fields,hcanonical⟩ := e
  cases fields with
  | nil => cases hevent
  | cons f fs => exact Json.loads_dump hcanonical hdump

/-- What was written passes the pattern, the checksum, the JSON reader and the schema again. -/
theorem parseLineOf_encodeLine {label : String} {validate : Dict → Except Raised Unit}
    {e : Event rt} (hevent : e.fields.has "event" = true)
    (hdump : Json.dumpError (.obj e.fields) = none) (hvalid : validate e.fields = .ok ()) :
    parseLineOf label validate rt (encodeLine e.fields) = .ok e.fields := by
  rw [parseLineOf,if_neg (by rw [encodeLine_getLast]; exact not_not.mpr rfl),encodeLine_dropLast,
    Checksum.searchSuffix_hex8 (UInt32.toNat_lt _)]
  dsimp only
  rw [if_neg (not_not.mpr rfl),loads_encodePayload hevent hdump]
  dsimp only
  rw [hvalid]

theorem parseLineOf_torn (label : String) (validate : Dict → Except Raised Unit)
    {line : List UInt8} (h : newline ∉ line) : parseLineOf label validate rt line =
      .error ⟨.manifestCorrupt,label ++ " record is missing its trailing newline"⟩ := by
  rw [parseLineOf,if_pos]
  exact fun hlast => h (List.mem_of_getLast? hlast)

theorem manifestLineIsValid_encodeLine {e : Event rt} (hevent : isStr (e.fields.get "event") = true)
    (hdump : Json.dumpError (.obj e.fields) = none) :
    manifestLineIsValid rt (encodeLine e.fields) = .ok e.fields := by
  have hhas : e.fields.has "event" = true := has_of_isStr hevent
  have hbar : (0x7C : UInt8) ∉ [0x43,0x52,0x43,0x33,0x32,0x3A] ++
      Checksum.hex8 (Checksum.crc32 (encodePayload e.fields)).toNat := by
    rw [List.mem_append,not_or]
    exact ⟨by decide,fun h => absurd (Checksum.isHexDigit_of_mem h) (by decide)⟩
  rw [manifestLineIsValid,if_neg (by rw [encodeLine_getLast]; exact not_not.mpr rfl),
    encodeLine_dropLast,crcSeparator,Checksum.rpartition_append hbar]
  dsimp only
  rw [if_neg (not_not.mpr Checksum.length_hex8),Checksum.intBase16_hex8 (UInt32.toNat_lt _)]
  dsimp only
  rw [if_neg (not_not.mpr rfl),loads_encodePayload hhas hdump]
  dsimp only
  rw [if_pos hevent]

theorem manifestLineIsValid_torn {line : List UInt8} (h : newline ∉ line) :
    manifestLineIsValid rt line =
      .error ⟨.manifestCorrupt,"manifest record is missing its trailing newline"⟩ := by
  rw [manifestLineIsValid,if_pos]
  exact fun hlast => h (List.mem_of_getLast? hlast)

/-! ## Accepted events -/

/-- `ManifestWriter.append` of one event after the other. -/
def appendAll (rt : Runtime) : Option Int → List (Event rt) → Except Raised (Option Int)
  | last, [] => .ok last
  | last, e :: es =>
    match append rt last e.fields with
    | .error raised => .error raised
    | .ok (next,_,_) => appendAll rt next es

/-- `PstManifestWriter.append` of one event after the other; the result are the events that
were written. -/
def Pst.appendAll (rt : Runtime) (importUuid : String) : List (Event rt) → List (Event rt) →
    Except Raised (List (Event rt))
  | written, [] => .ok written
  | written, e :: es =>
    match Pst.append rt importUuid (written.map Event.fields) e.fields with
    | .error raised => .error raised
    | .ok none => Pst.appendAll rt importUuid written es
    | .ok (some _) => Pst.appendAll rt importUuid (written ++ [e]) es

theorem isStr_of_eventNameOf {payload : Dict} {name : EventName}
    (h : eventNameOf payload = some name) : isStr (payload.get "event") = true := by
  unfold eventNameOf at h
  split at h
  · rename_i hget
    rw [hget]
    rfl
  · cases h

theorem Pst.isStr_of_eventNameOf {payload : Dict} {name : Pst.EventName}
    (h : Pst.eventNameOf payload = some name) : isStr (payload.get "event") = true := by
  unfold Pst.eventNameOf at h
  split at h
  · rename_i hget
    rw [hget]
    rfl
  · cases h

theorem validateEvent_isStr {payload : Dict} (h : validateEvent rt payload = .ok ()) :
    isStr (payload.get "event") = true := by
  unfold validateEvent at h
  split at h
  · cases h
  · rename_i hname
    exact isStr_of_eventNameOf hname

theorem Pst.validateEvent_isStr {payload : Dict} (h : Pst.validateEvent rt payload = .ok ()) :
    isStr (payload.get "event") = true := by
  unfold Pst.validateEvent at h
  split at h
  · cases h
  · rename_i hname
    exact Pst.isStr_of_eventNameOf hname

theorem dumpLine_eq_ok {payload : Dict} {line : List UInt8} (h : dumpLine payload = .ok line) :
    Json.dumpError (.obj payload) = none ∧ line = encodeLine payload := by
  unfold dumpLine at h
  split at h
  · cases h
  · rename_i hdump
    exact ⟨hdump,(Except.ok.inj h).symm⟩

/-- What an event that can be written has passed. -/
theorem encodeEvent_eq_ok {payload : Dict} {line : List UInt8}
    (h : encodeEvent rt payload = .ok line) : validateEvent rt payload = .ok () ∧
      Json.dumpError (.obj payload) = none ∧ line = encodeLine payload := by
  obtain ⟨⟨⟩,hvalid,h⟩ := Except.bind_eq_ok_iff.mp h
  exact ⟨hvalid,dumpLine_eq_ok h⟩

theorem Pst.encodeEvent_eq_ok {payload : Dict} {line : List UInt8}
    (h : Pst.encodeEvent rt payload = .ok line) : Pst.validateEvent rt payload = .ok () ∧
      Json.dumpError (.obj payload) = none ∧ line = encodeLine payload := by
  obtain ⟨⟨⟩,hvalid,h⟩ := Except.bind_eq_ok_iff.mp h
  exact ⟨hvalid,dumpLine_eq_ok h⟩

theorem parseLine_encodeEvent {e : Event rt} {line : List UInt8}
    (h : encodeEvent rt e.fields = .ok line) : parseLine rt line = .ok e.fields := by
  obtain ⟨hvalid,hdump,rfl⟩ := encodeEvent_eq_ok h
  exact parseLineOf_encodeLine (has_of_isStr (validateEvent_isStr hvalid)) hdump hvalid

theorem Pst.parseLine_encodeEvent {e : Event rt} {line : List UInt8}
    (h : Pst.encodeEvent rt e.fields = .ok line) : Pst.parseLine rt line = .ok e.fields := by
  obtain ⟨hvalid,hdump,rfl⟩ := Pst.encodeEvent_eq_ok h
  exact parseLineOf_encodeLine (has_of_isStr (Pst.validateEvent_isStr hvalid)) hdump hvalid

/-- The new checkpoint sequence of an accepted event, and that it can be written. -/
theorem append_eq_ok {payload : Dict} {last next : Option Int} {month : String}
    {line : List UInt8} (h : append rt last payload = .ok (next,month,line)) :
    encodeEvent rt payload = .ok line ∧
      parseTimestamp rt (payload.get "timestamp") = .ok month ∧
      nextSequence last payload = .ok next := by
  unfold append at h
  obtain ⟨⟨⟩,-,h⟩ := Except.bind_eq_ok_iff.mp h
  obtain ⟨next',hnext,h⟩ := Except.bind_eq_ok_iff.mp h
  obtain ⟨line',hline,h⟩ := Except.bind_eq_ok_iff.mp h
  obtain ⟨month',hmonth,h⟩ := Except.bind_eq_ok_iff.mp h
  have heq := Except.ok.inj h
  rw [Prod.mk.injEq,Prod.mk.injEq] at heq
  obtain ⟨rfl,rfl,rfl⟩ := heq
  exact ⟨hline,hmonth,hnext⟩

/-- A sequence that is accepted after another one is accepted as the first one. -/
theorem validateCheckpointSequence_none {sequence : Option Json.Value} {previous : Option Int}
    {n : Int} (h : validateCheckpointSequence sequence previous = .ok n) :
    validateCheckpointSequence sequence none = .ok n := by
  unfold validateCheckpointSequence at h ⊢
  split at h
  · split at h
    · cases h
    · rename_i hneg
      split at h
      · cases h
      · rw [if_neg hneg,if_neg (by simp)]
        exact h
  · cases h

/-- The reader may have seen no checkpoint yet where the writer already had one. -/
theorem nextSequence_seen {payload : Dict} {seen last next : Option Int}
    (hseen : seen = none ∨ seen = last) (h : nextSequence last payload = .ok next) :
    ∃ seen', nextSequence seen payload = .ok seen' ∧ (seen' = none ∨ seen' = next) := by
  obtain rfl | rfl := hseen
  · unfold nextSequence at h ⊢
    split at h
    · rename_i hcheckpoint
      rw [if_pos hcheckpoint]
      cases hsequence : validateCheckpointSequence (payload.get "sequence") last with
      | error raised =>
        rw [hsequence] at h
        cases h
      | ok n =>
        rw [hsequence] at h
        rw [validateCheckpointSequence_none hsequence]
        exact ⟨some n,rfl,.inr (Except.ok.inj h)⟩
    · rename_i hcheckpoint
      rw [if_neg hcheckpoint]
      exact ⟨none,rfl,.inl rfl⟩
  · exact ⟨next,h,.inr rfl⟩

theorem readLine_append {e : Event rt} {seen last next : Option Int} {month : String}
    {line : List UInt8} (hseen : seen = none ∨ seen = last)
    (h : append rt last e.fields = .ok (next,month,line)) :
    ∃ seen', readLine rt seen (encodeLine e.fields) = .accept seen' e.fields ∧
      (seen' = none ∨ seen' = next) := by
  obtain ⟨hencode,-,hnext⟩ := append_eq_ok h
  have hparse := parseLine_encodeEvent hencode
  rw [(encodeEvent_eq_ok hencode).2.2] at hparse
  obtain ⟨seen',hsequence,hseen'⟩ := nextSequence_seen hseen hnext
  refine ⟨seen',?_,hseen'⟩
  rw [readLine,hparse]
  simp only [verdictOf,hsequence]

theorem accepts_appendAll {events : List (Event rt)} {seen last last' : Option Int}
    (hseen : seen = none ∨ seen = last) (h : appendAll rt last events = .ok last') :
    LineLog.Accepts (readLine rt) encodeLine seen (events.map Event.fields) := by
  induction events generalizing seen last with
  | nil => trivial
  | cons e es ih =>
    rw [appendAll] at h
    split at h
    · cases h
    · rename_i next month line happend
      obtain ⟨seen',haccept,hseen'⟩ := readLine_append hseen happend
      exact ⟨seen',haccept,ih hseen' h⟩

/-- Every accepted event can be written. -/
theorem writable_appendAll {events : List (Event rt)} {last last' : Option Int}
    (h : appendAll rt last events = .ok last') :
    ∀ e ∈ events, isStr (e.fields.get "event") = true ∧
      Json.dumpError (.obj e.fields) = none := by
  induction events generalizing last with
  | nil =>
    intro e he
    cases he
  | cons e es ih =>
    rw [appendAll] at h
    split at h
    · cases h
    · rename_i next month line happend
      intro e' he'
      obtain rfl | he' := List.mem_cons.mp he'
      · obtain ⟨hvalid,hdump,-⟩ := encodeEvent_eq_ok (append_eq_ok happend).1
        exact ⟨validateEvent_isStr hvalid,hdump⟩
      · exact ih h e' he'

theorem Pst.append_eq_some {importUuid : String} {earlier : List Dict} {payload : Dict}
    {line : List UInt8} (h : Pst.append rt importUuid earlier payload = .ok (some line)) :
    Pst.encodeEvent rt payload = .ok line ∧
      Pst.validateTransition rt payload earlier = .ok true := by
  unfold Pst.append at h
  obtain ⟨⟨⟩,-,h⟩ := Except.bind_eq_ok_iff.mp h
  obtain ⟨⟨⟩,-,h⟩ := Except.bind_eq_ok_iff.mp h
  obtain ⟨isNew,htransition,h⟩ := Except.bind_eq_ok_iff.mp h
  cases isNew with
  | false => cases h
  | true =>
    refine ⟨?_,htransition⟩
    rw [if_pos rfl] at h
    cases hencode : Pst.encodeEvent rt payload with
    | error raised =>
      rw [hencode] at h
      cases h
    | ok line' =>
      rw [hencode] at h
      exact congrArg Except.ok (Option.some.inj (Except.ok.inj h))

/-- What holds of the events the PST writer wrote. -/
structure Pst.Written (rt : Runtime) (written : List (Event rt)) : Prop where
  writable : ∀ e ∈ written, isStr (e.fields.get "event") = true ∧
    Json.dumpError (.obj e.fields) = none
  accepts : LineLog.Accepts (Pst.readLine rt) encodeLine [] (written.map Event.fields)

/-- A reader that takes the records so far takes one more after them. -/
theorem Pst.accepts_concat {written : List Dict} {earlier : List Dict} {payload : Dict}
    (h : LineLog.Accepts (Pst.readLine rt) encodeLine earlier written)
    (hnext : Pst.readLine rt (earlier ++ written) (encodeLine payload) =
      .accept (earlier ++ written ++ [payload]) payload) :
    LineLog.Accepts (Pst.readLine rt) encodeLine earlier (written ++ [payload]) := by
  induction written generalizing earlier with
  | nil =>
    rw [List.append_nil] at hnext
    exact ⟨_,hnext,trivial⟩
  | cons r rs ih =>
    obtain ⟨state,haccept,hrest⟩ := h
    obtain rfl : state = earlier ++ [r] := by
      unfold Pst.readLine verdictOf at haccept
      split at haccept
      · dsimp only at haccept
        split at haccept
        · injection haccept with hstate hrecord
          rw [← hstate,hrecord]
        · split at haccept
          all_goals cases haccept
      · split at haccept
        all_goals cases haccept
    refine ⟨_,haccept,ih hrest ?_⟩
    rw [List.append_assoc earlier [r] rs,List.singleton_append]
    exact hnext

theorem Pst.Written.concat {importUuid : String} {written : List (Event rt)} {e : Event rt}
    {line : List UInt8} (h : Pst.Written rt written)
    (happend : Pst.append rt importUuid (written.map Event.fields) e.fields = .ok (some line)) :
    Pst.Written rt (written ++ [e]) := by
  obtain ⟨hencode,htransition⟩ := Pst.append_eq_some happend
  obtain ⟨hvalid,hdump,hline⟩ := Pst.encodeEvent_eq_ok hencode
  constructor
  · intro e' he'
    obtain he' | he' := List.mem_append.mp he'
    · exact h.writable e' he'
    · rw [List.mem_singleton.mp he']
      exact ⟨Pst.validateEvent_isStr hvalid,hdump⟩
  · have hparse := Pst.parseLine_encodeEvent hencode
    rw [hline] at hparse
    rw [List.map_append]
    refine Pst.accepts_concat h.accepts ?_
    rw [List.nil_append,Pst.readLine,hparse]
    simp only [verdictOf,htransition]

theorem Pst.written_appendAll {importUuid : String} {events written written' : List (Event rt)}
    (hwritten : Pst.Written rt written)
    (h : Pst.appendAll rt importUuid written events = .ok written') : Pst.Written rt written' := by
  induction events generalizing written with
  | nil =>
    rw [Pst.appendAll] at h
    rw [← Except.ok.inj h]
    exact hwritten
  | cons e es ih =>
    rw [Pst.appendAll] at h
    split at h
    · cases h
    · exact ih hwritten h
    · rename_i happend
      exact ih (hwritten.concat happend) h

/-! ## Cut files -/

/-- A file of the events, cut at any byte: the reader yields exactly the events whose line is
still complete and cuts the file at the end of the last of them, and so does the
verification. -/
def RepairsTail (rt : Runtime) (reader : List UInt8 → List Dict × Except Raised (Option Nat))
    (events : List Dict) : Prop :=
  ∀ n, ∃ kept truncateAt, LineLog.Survive encodeLine events n kept ∧
    reader ((events.flatMap encodeLine).take n) = (kept,.ok truncateAt) ∧
    verifyLines rt ((events.flatMap encodeLine).take n) = (kept,.ok truncateAt) ∧
    LineLog.cut ((events.flatMap encodeLine).take n) truncateAt = kept.flatMap encodeLine ∧
    verifyManifestFile rt ((events.flatMap encodeLine).take n) = .ok (kept.length,
      ((events.flatMap encodeLine).take n).length - (kept.flatMap encodeLine).length)

/-- The verification takes every event that was written. -/
theorem accepts_verify {events : List (Event rt)}
    (h : ∀ e ∈ events, isStr (e.fields.get "event") = true ∧
      Json.dumpError (.obj e.fields) = none) :
    LineLog.Accepts (verifyLine rt) encodeLine () (events.map Event.fields) := by
  induction events with
  | nil => trivial
  | cons e es ih =>
    obtain ⟨hstr,hdump⟩ := h e List.mem_cons_self
    refine ⟨(),?_,ih fun e' he' => h e' (List.mem_cons_of_mem e he')⟩
    rw [verifyLine,manifestLineIsValid_encodeLine hstr hdump]
    rfl

/-- A reader that takes the written events and finds a line without its end torn. -/
theorem repairsTail {σ : Type} {check : σ → List UInt8 → LineLog.Verdict σ Dict Raised} {state : σ}
    {events : List (Event rt)}
    (hwritable : ∀ e ∈ events, isStr (e.fields.get "event") = true ∧
      Json.dumpError (.obj e.fields) = none)
    (haccepts : LineLog.Accepts check encodeLine state (events.map Event.fields))
    (htorn : ∀ state line, newline ∉ line → ∃ e, check state line = .malformed e) :
    RepairsTail rt (fun file => LineLog.walk check state 0 (LineLog.lines newline file))
      (events.map Event.fields) := by
  intro n
  obtain ⟨kept,hkept⟩ := LineLog.Survive.exists encodeLine (events.map Event.fields) n
  have hlines : ∀ r ∈ events.map Event.fields, LineLog.IsLine newline (encodeLine r) := by
    intro r hr
    obtain ⟨e,-,rfl⟩ := List.mem_map.mp hr
    exact encodeLine_isLine e
  have hread := LineLog.walk_take 0 hlines haccepts htorn hkept
  have hverifyTorn : ∀ state line, newline ∉ line → ∃ e, verifyLine rt state line = .malformed e := by
    intro state line hline
    rw [verifyLine,manifestLineIsValid_torn hline]
    exact ⟨_,rfl⟩
  have hverify := LineLog.walk_take 0 hlines (accepts_verify hwritable) hverifyTorn hkept
  have hcut := hkept.cut_take
  simp only [Nat.zero_add] at hread hverify
  refine ⟨kept,_,hkept,hread,hverify,hcut,?_⟩
  rw [verifyManifestFile,verifyLines,hverify]
  split_ifs with hlt
  · rfl
  · have hle : (((events.map Event.fields).flatMap encodeLine).take n).length ≤
        (kept.flatMap encodeLine).length := Nat.le_of_not_lt hlt
    rw [Nat.sub_eq_zero_of_le hle]

/-- Every event that can be written is read back from its line, and a file of accepted events
that was cut at any byte is read and repaired alike by its reader and by the verification: for
the IMAP manifest with any checkpoint before its first event, and for the PST manifest. -/
theorem torn_tail_recovery (rt : Runtime) :
    (∀ (e : Event rt) line, encodeEvent rt e.fields = .ok line →
      parseLine rt line = .ok e.fields) ∧
    (∀ (events : List (Event rt)) last last', appendAll rt last events = .ok last' →
      RepairsTail rt (readEvents rt) (events.map Event.fields)) ∧
    (∀ (e : Event rt) line, Pst.encodeEvent rt e.fields = .ok line →
      Pst.parseLine rt line = .ok e.fields) ∧
    (∀ importUuid (events written : List (Event rt)),
      Pst.appendAll rt importUuid [] events = .ok written →
      RepairsTail rt (Pst.readEvents rt) (written.map Event.fields)) := by
  refine ⟨fun e line h => parseLine_encodeEvent h,?_,fun e line h => Pst.parseLine_encodeEvent h,?_⟩
  · intro events last last' h
    refine repairsTail (writable_appendAll h) (accepts_appendAll (.inl rfl) h) ?_
    intro state line hline
    rw [readLine,parseLine,parseLineOf_torn _ _ hline]
    exact ⟨_,rfl⟩
  · intro importUuid events written h
    have hempty : Pst.Written rt [] := ⟨(fun e he => by cases he),trivial⟩
    have hwritten := Pst.written_appendAll hempty h
    refine repairsTail hwritten.writable hwritten.accepts ?_
    intro state line hline
    rw [Pst.readLine,Pst.parseLine,parseLineOf_torn _ _ hline]
    exact ⟨_,rfl⟩

/-- A runtime that knows one time stamp and one UUID. -/
def januaryRuntime : Runtime where
  floatRepr text := text
  decode _ _ := none
  fromisoformat text := if text = "2026-01-05T10:00:00+00:00" then .utc "202601" else .invalid
  casefold := String.map Char.toLower
  uuidVersion text :=
    if text = "6f1c1d0e-4a55-4a7b-9d0e-0c7a3f7f2b11" then some (some 4) else none
  repr _ := "None"
  sameNumber _ _ := false

def firstCheckpoint : Event januaryRuntime where
  fields := [("account_id",.str "work"),("batch_id",.str "b1"),("event",.str "checkpoint"),
    ("sequence",.int 1),("timestamp",.str "2026-01-05T10:00:00Z")]
  canonical := by decide

def abandonedImport : Event januaryRuntime where
  fields := [("event",.str "import_abandoned"),
    ("import_uuid",.str "6f1c1d0e-4a55-4a7b-9d0e-0c7a3f7f2b11"),("reason",.str "disk\nfull"),
    ("timestamp",.str "2026-01-05T10:00:00Z")]
  canonical := by decide

def fourthCheckpoint : Event januaryRuntime where
  fields := [("account_id",.str "work"),("batch_id",.str "b2"),("event",.str "checkpoint"),
    ("sequence",.int 4),("timestamp",.str "2026-01-05T10:00:00Z")]
  canonical := by decide

def discoveredItem : Event januaryRuntime where
  fields := [("event",.str "item_discovered"),("folder_relative_path",.str "Inbox"),
    ("import_uuid",.str "6f1c1d0e-4a55-4a7b-9d0e-0c7a3f7f2b11"),("source_item_key",.str "k"),
    ("source_relative_path",.str "Inbox/1.eml"),
    ("source_sha256",.str "4bf5122f344554c53bde2ebb8cd2b7e3d1600ad631c385a5d7cce23c7785459a"),
    ("source_size_bytes",.int 1),("timestamp",.str "2026-01-05T10:00:00Z")]
  canonical := by decide

def failedItem : Event januaryRuntime where
  fields := [("error_class",.str "parse"),("error_message",.str "メール"),
    ("event",.str "item_parse_failed"),
    ("import_uuid",.str "6f1c1d0e-4a55-4a7b-9d0e-0c7a3f7f2b11"),("source_item_key",.str "k"),
    ("timestamp",.str "2026-01-05T10:00:00Z")]
  canonical := by decide

/-- Two checkpoints, and an import of one item, met twice, that is then abandoned. -/
theorem torn_tail_recovery_two :
    appendAll januaryRuntime none [firstCheckpoint,fourthCheckpoint] = .ok (some 4) ∧
    RepairsTail januaryRuntime (readEvents januaryRuntime)
      [firstCheckpoint.fields,fourthCheckpoint.fields] ∧
    Pst.appendAll januaryRuntime "6f1c1d0e-4a55-4a7b-9d0e-0c7a3f7f2b11" []
        [discoveredItem,failedItem,discoveredItem,abandonedImport] =
      .ok [discoveredItem,failedItem,abandonedImport] ∧
    RepairsTail januaryRuntime (Pst.readEvents januaryRuntime)
      [discoveredItem.fields,failedItem.fields,abandonedImport.fields] := by
  have himap : appendAll januaryRuntime none [firstCheckpoint,fourthCheckpoint] =
      .ok (some 4) := by rfl
  have hpst : Pst.appendAll januaryRuntime "6f1c1d0e-4a55-4a7b-9d0e-0c7a3f7f2b11" []
      [discoveredItem,failedItem,discoveredItem,abandonedImport] =
        .ok [discoveredItem,failedItem,abandonedImport] := by rfl
  exact ⟨himap,(torn_tail_recovery januaryRuntime).2.1 _ _ _ himap,hpst,
    (torn_tail_recovery januaryRuntime).2.2.2 _ _ _ hpst⟩

end MailDock.Wire
