import Mathlib.Data.List.Sort
import MailDock.Imap.Fetch

/-!
# The order of message references

`iter_message_refs` of `generic_imap.py`: one SEARCH, then one FETCH for every 500
UIDs, whose responses are yielded as they arrive.  A generator is a list of what it
yields and the exception that ends it, if any.

## Main definitions

- `iterMessageRefs` — the generator
- `OrderContract` — what `domain/fetcher.py` promises of it
- `AnsweredInOrder` — how the server must answer for the promise to hold
-/

namespace MailDock

/-- What a generator yields, and the exception that ends it. -/
structure Yielded where
  refs : List RemoteMessageRef := []
  error : Option Error := none
deriving DecidableEq, Repr

/-- Run a generator and then, if it ended normally, another one. -/
def Yielded.andThen (a b : Yielded) : Yielded :=
  match a.error with
  | some _ => a
  | none => ⟨a.refs ++ b.refs,b.error⟩

/-- The server as one call of `iter_message_refs` meets it: the outcome of each
command, and whether cancellation was requested at each check. -/
structure RefsSession where
  select : Except Error Nat
  search : Except Error (List Bytes)
  /-- The answer to the FETCH of a chunk. -/
  fetch : Nat → List Nat → Except Error (List FetchItem)
  cancelled : Nat → Bool := fun _ => false

def cancelledError : Error := ⟨.cancelled,"operation cancelled"⟩

def fetchChunkSize : Nat := 500

/-- `_search_uids`. -/
def searchUids (data : List Bytes) : List Nat :=
  data.flatMap fun item =>
    ((splitSpaces (decodeAscii item)).filter fun token => token.all Char.isDigit).map
      fun digits => digits.foldl (fun n d => 10 * n + (d.toNat - '0'.toNat)) 0

def sortUids (descending : Bool) (uids : List Nat) : List Nat :=
  if descending then uids.insertionSort (· ≥ ·) else uids.insertionSort (· ≤ ·)

/-- `uids[offset : offset + size] for offset in range(0, len(uids), size)`. -/
def chunks (size : Nat) (uids : List Nat) : List (List Nat) :=
  (List.range ((uids.length + size - 1) / size)).map fun i => (uids.drop (size * i)).take size

section
variable (lib : EmailLib)

/-- The loop over the items of one FETCH; items without a literal are passed over. -/
def yieldItems : List FetchItem → Yielded
  | [] => {}
  | .plain _ :: items => yieldItems items
  | .literal metadata body :: items =>
    match parseFetchResponse lib metadata body with
    | .error e => ⟨[],some e⟩
    | .ok ref => (⟨[ref],none⟩ : Yielded).andThen (yieldItems items)

variable (session : RefsSession)

/-- One turn of the loop over the chunks. -/
def yieldChunk (i : Nat) (chunk : List Nat) : Yielded :=
  if session.cancelled (2 * i + 1) then ⟨[],some cancelledError⟩
  else match session.fetch i chunk with
    | .error e => ⟨[],some e⟩
    | .ok items => (yieldItems lib items).andThen
      (if session.cancelled (2 * i + 2) then ⟨[],some cancelledError⟩ else {})

def yieldChunks : Nat → List (List Nat) → Yielded
  | _,[] => {}
  | i,chunk :: rest => (yieldChunk lib session i chunk).andThen (yieldChunks (i + 1) rest)

def iterMessageRefs (minUid : Int) (maxUid : Option Int) (descending : Bool) : Yielded :=
  if minUid < 1 then ⟨[],some ⟨.value,"min_uid must be at least 1"⟩⟩
  else if maxUid.any (· < 0) then ⟨[],some ⟨.value,"max_uid must not be negative"⟩⟩
  else match session.select with
    | .error e => ⟨[],some e⟩
    | .ok _ =>
      if maxUid = some 0 ∨ maxUid.any (· < minUid) then {}
      else if session.cancelled 0 then ⟨[],some cancelledError⟩
      else match session.search with
        | .error e => ⟨[],some e⟩
        | .ok data => yieldChunks lib session 0
          (chunks fetchChunkSize (sortUids descending (searchUids data)))

/-! What the responses say. -/

/-- The UIDs named by the responses with a literal, in the order they arrived. -/
def literalUids (items : List FetchItem) : List Nat :=
  items.filterMap fun item =>
    match item with
    | .literal metadata _ => metadataUid metadata
    | .plain _ => none

/-- Every response with a literal can be parsed. -/
def Parsable (items : List FetchItem) : Prop :=
  ∀ metadata body, FetchItem.literal metadata body ∈ items →
    ∃ ref, parseFetchResponse lib metadata body = .ok ref

/-- The chunks from the `i`-th on are answered, without cancellation, by `items`. -/
def Answered : Nat → List (List Nat) → List FetchItem → Prop
  | _,[],items => items = []
  | i,chunk :: rest,items => session.cancelled (2 * i + 1) = false ∧
    session.cancelled (2 * i + 2) = false ∧ ∃ first later, session.fetch i chunk = .ok first ∧
      Parsable lib first ∧ Answered (i + 1) rest later ∧ items = first ++ later

end

/-- `domain/fetcher.py` with `descending=True`: the generator raises, or yields one
reference for each UID of the SEARCH result, from the highest to the lowest. -/
def OrderContract (uids : List Nat) (y : Yielded) : Prop :=
  y.error ≠ none ∨ ((y.refs.map (·.uid)).Pairwise (· > ·) ∧
    ∀ uid, uid ∈ y.refs.map (·.uid) ↔ uid ∈ uids)

/-- When the whole fetch is answered, the responses with a literal name the UIDs of
the SEARCH result, from the highest to the lowest and each once. -/
def AnsweredInOrder (lib : EmailLib) (session : RefsSession) (uids : List Nat) : Prop :=
  ∀ items, Answered lib session 0 (chunks fetchChunkSize (sortUids true uids)) items →
    (literalUids items).Pairwise (· > ·) ∧ ∀ uid, uid ∈ literalUids items ↔ uid ∈ uids

theorem andThen_error {a b : Yielded} :
    (a.andThen b).error = none ↔ a.error = none ∧ b.error = none := by
  unfold Yielded.andThen
  cases h : a.error with
  | none => simp
  | some e => simp [h]

theorem andThen_refs {a b : Yielded} (h : a.error = none) :
    (a.andThen b).refs = a.refs ++ b.refs := by
  unfold Yielded.andThen
  rw [h]

/-- The items of one FETCH are yielded without an error exactly when they parse, and
then in the order of the responses. -/
theorem yieldItems_spec (lib : EmailLib) (items : List FetchItem) :
    ((yieldItems lib items).error = none ↔ Parsable lib items) ∧
      ((yieldItems lib items).error = none →
        (yieldItems lib items).refs.map (·.uid) = literalUids items) := by
  induction items with
  | nil => exact ⟨iff_of_true rfl fun _ _ h => absurd h List.not_mem_nil,fun _ => rfl⟩
  | cons item items ih =>
    cases item with
    | plain metadata =>
      refine ⟨?_,fun h => ih.2 h⟩
      rw [show yieldItems lib (.plain metadata :: items) = yieldItems lib items from rfl,ih.1]
      simp [Parsable]
    | literal metadata body =>
      cases hparse : parseFetchResponse lib metadata body with
      | error e =>
        have hyield : yieldItems lib (.literal metadata body :: items) = ⟨[],some e⟩ := by
          simp [yieldItems,hparse]
        rw [hyield]
        refine ⟨iff_of_false (by simp) fun h => ?_,fun h => by cases h⟩
        obtain ⟨ref,href⟩ := h metadata body (by simp)
        rw [hparse] at href
        cases href
      | ok ref =>
        have hyield : yieldItems lib (.literal metadata body :: items) =
            (⟨[ref],none⟩ : Yielded).andThen (yieldItems lib items) := by
          simp [yieldItems,hparse]
        rw [hyield,andThen_error,ih.1]
        constructor
        · constructor
          · rintro ⟨-,h⟩ m b hmem
            rcases List.mem_cons.mp hmem with heq | hmem
            · cases heq
              exact ⟨ref,hparse⟩
            · exact h m b hmem
          · exact fun h => ⟨rfl,fun m b hmem => h m b (List.mem_cons_of_mem _ hmem)⟩
        · rintro ⟨-,h⟩
          rw [andThen_refs rfl]
          simp only [List.singleton_append,List.map_cons,literalUids,List.filterMap_cons,
            parseFetchResponse_uid hparse]
          rw [ih.2 (ih.1.mpr h)]
          rfl

/-- One chunk. -/
theorem yieldChunk_spec (lib : EmailLib) (session : RefsSession) (i : Nat) (chunk : List Nat) :
    ((yieldChunk lib session i chunk).error = none ↔
      session.cancelled (2 * i + 1) = false ∧ session.cancelled (2 * i + 2) = false ∧
        ∃ items, session.fetch i chunk = .ok items ∧ Parsable lib items) ∧
    ∀ items, session.fetch i chunk = .ok items → (yieldChunk lib session i chunk).error = none →
      (yieldChunk lib session i chunk).refs.map (·.uid) = literalUids items := by
  unfold yieldChunk
  by_cases hbefore : session.cancelled (2 * i + 1) = true
  · simp [hbefore]
  · rw [if_neg hbefore]
    cases hfetch : session.fetch i chunk with
    | error e => simp
    | ok items =>
      dsimp only
      have hitems := yieldItems_spec lib items
      by_cases hafter : session.cancelled (2 * i + 2) = true
      · simp [hafter,andThen_error]
      · rw [if_neg hafter]
        refine ⟨?_,?_⟩
        · rw [andThen_error,hitems.1]
          simp [hbefore,hafter]
        · intro items' heq herror
          cases heq
          have hnone := (andThen_error.mp herror).1
          rw [andThen_refs hnone]
          simpa using hitems.2 hnone

/-- All chunks: no error exactly when everything is answered, and then the references
come in the order of the responses. -/
theorem yieldChunks_spec (lib : EmailLib) (session : RefsSession) (i : Nat)
    (parts : List (List Nat)) :
    ((yieldChunks lib session i parts).error = none ↔
      ∃ items, Answered lib session i parts items) ∧
    ∀ items, Answered lib session i parts items →
      (yieldChunks lib session i parts).refs.map (·.uid) = literalUids items := by
  induction parts generalizing i with
  | nil =>
    refine ⟨iff_of_true rfl ⟨[],rfl⟩,fun items h => ?_⟩
    rw [show items = [] from h]
    rfl
  | cons chunk rest ih =>
    have hchunk := yieldChunk_spec lib session i chunk
    have hrest := ih (i + 1)
    rw [show yieldChunks lib session i (chunk :: rest) =
      (yieldChunk lib session i chunk).andThen (yieldChunks lib session (i + 1) rest) from rfl]
    constructor
    · rw [andThen_error,hchunk.1,hrest.1]
      constructor
      · rintro ⟨⟨hbefore,hafter,first,hfirst,hparse⟩,later,hlater⟩
        exact ⟨first ++ later,hbefore,hafter,first,later,hfirst,hparse,hlater,rfl⟩
      · rintro ⟨items,hbefore,hafter,first,later,hfirst,hparse,hlater,-⟩
        exact ⟨⟨hbefore,hafter,first,hfirst,hparse⟩,later,hlater⟩
    · rintro items ⟨hbefore,hafter,first,later,hfirst,hparse,hlater,rfl⟩
      have hnone := hchunk.1.mpr ⟨hbefore,hafter,first,hfirst,hparse⟩
      rw [andThen_refs hnone,List.map_append,hchunk.2 first hfirst hnone,hrest.2 later hlater]
      simp [literalUids]

/-- The order contract of `iter_message_refs` holds exactly when the server answers
the FETCHes in the order of the request. -/
theorem iterMessageRefs_order_iff (lib : EmailLib) (session : RefsSession) (minUid : Int)
    (maxUid : Option Int) (data : List Bytes) (uidvalidity : Nat) (hmin : 1 ≤ minUid)
    (hmax : ∀ m ∈ maxUid, 0 < m ∧ minUid ≤ m) (hselect : session.select = .ok uidvalidity)
    (hcancelled : session.cancelled 0 = false) (hsearch : session.search = .ok data) :
    OrderContract (searchUids data) (iterMessageRefs lib session minUid maxUid true) ↔
      AnsweredInOrder lib session (searchUids data) := by
  have hrun : iterMessageRefs lib session minUid maxUid true = yieldChunks lib session 0
      (chunks fetchChunkSize (sortUids true (searchUids data))) := by
    have hneg : ¬ (maxUid.any (· < 0)) = true := by
      cases maxUid with
      | none => simp
      | some m =>
        have := hmax m rfl
        simp only [Option.any_some,decide_eq_true_eq]
        omega
    have hempty : ¬ (maxUid = some 0 ∨ (maxUid.any (· < minUid)) = true) := by
      cases maxUid with
      | none => simp
      | some m =>
        have := hmax m rfl
        simp only [Option.any_some,decide_eq_true_eq,Option.some.injEq]
        omega
    unfold iterMessageRefs
    rw [if_neg (by omega),if_neg hneg,hselect]
    dsimp only
    rw [if_neg hempty,hcancelled,hsearch]
    rfl
  rw [hrun]
  have hspec := yieldChunks_spec lib session 0
    (chunks fetchChunkSize (sortUids true (searchUids data)))
  constructor
  · intro h items hitems
    rcases h with herror | horder
    · exact absurd (hspec.1.mpr ⟨items,hitems⟩) herror
    · rwa [hspec.2 items hitems] at horder
  · intro h
    by_cases herror : (yieldChunks lib session 0
        (chunks fetchChunkSize (sortUids true (searchUids data)))).error = none
    · obtain ⟨items,hitems⟩ := hspec.1.mp herror
      right
      rw [hspec.2 items hitems]
      exact h items hitems
    · exact .inl herror

/-! Two messages, answered in the order of their sequence numbers or of the request. -/

def fetchResponse (metadata : String) : List FetchItem :=
  [.literal (metadata.toList.map fun c => UInt8.ofNat c.toNat)
    ("Message-ID: <a@example.org>\r\n\r\n".toList.map fun c => UInt8.ofNat c.toNat),.plain [41]]

/-- The attributes of a response up to its header literal. -/
def fetchMetadata (sequence uid size : String) : String :=
  sequence ++ " (UID " ++ uid ++ " INTERNALDATE \"01-Jan-2024 00:00:00 +0000\" RFC822.SIZE " ++
    size ++ " FLAGS (\\Seen) BODY[HEADER.FIELDS (MESSAGE-ID)] \x7b31\x7d"

def firstResponse : List FetchItem := fetchResponse (fetchMetadata "1" "7" "120")
def secondResponse : List FetchItem := fetchResponse (fetchMetadata "2" "9" "80")

def answeringSession (items : List FetchItem) : RefsSession where
  select := .ok 1
  search := .ok ["7 9".toList.map fun c => UInt8.ofNat c.toNat]
  fetch _ _ := .ok items

def plainLib : EmailLib where
  parsedate s := if s = "01-Jan-2024 00:00:00 +0000" then some ⟨2024,1,1,0,0,0⟩ else none
  messageIdFromHeaders _ := some "<a@example.org>"

/-- The same attributes as a list of characters. -/
def metadataText (sequence uid size : List Char) : List Char :=
  sequence ++ ([' ','(','U','I','D',' '] ++ (uid ++
    ([' ','I','N','T','E','R','N','A','L','D','A','T','E',' ','"','0','1','-','J','a','n','-','2','0',
      '2','4',' ','0','0',':','0','0',':','0','0',' ','+','0','0','0','0','"',' ','R','F','C','8','2',
      '2','.','S','I','Z','E',' '] ++ (size ++
    [' ','F','L','A','G','S',' ','(','\\','S','e','e','n',')',' ','B','O','D','Y','[','H','E','A','D',
      'E','R','.','F','I','E','L','D','S',' ','(','M','E','S','S','A','G','E','-','I','D',')',']',' ',
      '{','3','1','}']))))

theorem toList_fetchMetadata (sequence uid size : List Char) :
    (fetchMetadata (.ofList sequence) (.ofList uid) (.ofList size)).toList =
      metadataText sequence uid size := by
  have htext : fetchMetadata (.ofList sequence) (.ofList uid) (.ofList size) =
      String.ofList (metadataText sequence uid size) := by
    unfold fetchMetadata
    simp only [metadataText,String.ofList_append,String.append_assoc]
  rw [htext,String.toList_ofList]

/-- A server that answers in ascending order makes the generator yield UID 7 before UID 9. -/
theorem iterMessageRefs_ascending_answer :
    searchUids ["7 9".toList.map fun c => UInt8.ofNat c.toNat] = [7,9] ∧
      ¬ OrderContract [7,9] (iterMessageRefs plainLib
        (answeringSession (firstResponse ++ secondResponse)) 1 none true) := by
  have hfirst : (fetchMetadata "1" "7" "120").toList = metadataText ['1'] ['7'] ['1','2','0'] :=
    toList_fetchMetadata ['1'] ['7'] ['1','2','0']
  have hsecond : (fetchMetadata "2" "9" "80").toList = metadataText ['2'] ['9'] ['8','0'] :=
    toList_fetchMetadata ['2'] ['9'] ['8','0']
  have hrun : (iterMessageRefs plainLib (answeringSession (firstResponse ++ secondResponse)) 1
        none true).error = none ∧
      (iterMessageRefs plainLib (answeringSession (firstResponse ++ secondResponse)) 1
        none true).refs.map (·.uid) = [7,9] := by
    -- the texts are spelled out first: taking them apart is what costs
    unfold firstResponse secondResponse fetchResponse
    rw [hfirst,hsecond]
    decide
  refine ⟨by decide,?_⟩
  rintro (h | ⟨hdescending,-⟩)
  · exact h hrun.1
  · rw [hrun.2] at hdescending
    exact absurd hdescending (by decide)

/-- A server that answers in descending order keeps the promise. -/
theorem iterMessageRefs_order_descending_answer :
    OrderContract [7,9] (iterMessageRefs plainLib
      (answeringSession (secondResponse ++ firstResponse)) 1 none true) := by
  have huids : searchUids ["7 9".toList.map fun c => UInt8.ofNat c.toNat] = [7,9] := by
    decide
  rw [← huids]
  refine (iterMessageRefs_order_iff plainLib (answeringSession (secondResponse ++ firstResponse)) 1
    none _ 1 (by decide) (fun _ h => by cases h) rfl rfl rfl).mpr ?_
  rw [huids]
  intro items hanswered
  have hchunks : chunks fetchChunkSize (sortUids true [7,9]) = [[9,7]] := by decide
  rw [hchunks] at hanswered
  obtain ⟨-,-,first,later,hfirst,-,hlater,hitems⟩ := hanswered
  obtain rfl : secondResponse ++ firstResponse = first := Except.ok.inj hfirst
  obtain rfl : later = [] := hlater
  have hliteral : literalUids items = [9,7] := by
    rw [hitems,List.append_nil]
    unfold firstResponse secondResponse fetchResponse
    rw [show (fetchMetadata "1" "7" "120").toList = metadataText ['1'] ['7'] ['1','2','0'] from
        toList_fetchMetadata ['1'] ['7'] ['1','2','0'],
      show (fetchMetadata "2" "9" "80").toList = metadataText ['2'] ['9'] ['8','0'] from
        toList_fetchMetadata ['2'] ['9'] ['8','0']]
    decide
  rw [hliteral]
  exact ⟨by decide,by simp [or_comm]⟩

end MailDock
