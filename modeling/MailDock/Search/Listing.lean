import MailDock.Search.Pages
import MailDock.Repository.Frames

/-!
# What the pages of a listing add up to

The joins give at most one row for a message, and one exactly when the message has a
membership in a folder that was asked for.  The rows are sorted by a key no two of them
share, so following the cursors reads each of them once.
-/

namespace MailDock

open Relational

namespace Tables

variable {t : Tables}

theorem leftJoin_eq_singleton {α : Type} {rows : List α}
    (h : rows = [] ∨ ∃ a, rows = [a]) : ∃ a, leftJoin rows = [a] := by
  rcases h with rfl | ⟨a,rfl⟩
  · exact ⟨none,rfl⟩
  · exact ⟨some a,rfl⟩

theorem Valid.movedToFolders_le_one (ht : t.Valid) (r : Membership) :
    t.movedToFolders r = [] ∨ ∃ f, t.movedToFolders r = [f] := by
  cases hrows : t.movedToFolders r with
  | nil => exact .inl rfl
  | cons f rest =>
    obtain ⟨hf,hid⟩ := List.mem_filter.mp (show f ∈ t.movedToFolders r by simp [hrows])
    have hone : t.movedToFolders r = [f] := by
      refine ht.folderId.filter_eq (k := f.id) hf hid ?_
      intro g _ hg
      rw [beq_iff_eq] at hid hg
      exact hg.trans hid.symm
    exact .inr ⟨f,hrows ▸ hone⟩

theorem Valid.failuresOf_le_one (ht : t.Valid) (m : Message) (r : Membership) :
    t.failuresOf m r = [] ∨ ∃ f, t.failuresOf m r = [f] := by
  cases hrows : t.failuresOf m r with
  | nil => exact .inl rfl
  | cons f rest =>
    obtain ⟨hf,hkey⟩ := List.mem_filter.mp (show f ∈ t.failuresOf m r by simp [hrows])
    have hone : t.failuresOf m r = [f] := by
      refine ht.failureKey.filter_eq (k := (f.accountId,f.folderId,f.uidvalidity,f.uid)) hf hkey ?_
      intro g _ hg
      simp only [Bool.and_eq_true,beq_iff_eq] at hkey hg
      have huidvalidity : g.uidvalidity = f.uidvalidity :=
        Option.some.inj (hg.1.2.trans hkey.1.2.symm)
      have huid : g.uid = f.uid := Option.some.inj (hg.2.trans hkey.2.symm)
      simp [hg.1.1.1,hg.1.1.2,hkey.1.1.1,hkey.1.1.2,huidvalidity,huid]
    exact .inr ⟨f,hrows ▸ hone⟩

/-- The membership a listing shows for a message: the one of the lowest folder. -/
structure Shows (t : Tables) (filters : MessageFilter) (messageId : Nat) (r : Membership) :
    Prop where
  stored : r ∈ t.memberships
  eligible : isEligible filters messageId r = true
  lowest : ∀ s ∈ t.memberships, isEligible filters messageId s = true → r.folderId ≤ s.folderId

theorem shows_of_shownFolderId {filters : MessageFilter} {messageId folderId : Nat}
    (h : t.shownFolderId filters messageId = some folderId) :
    ∃ r, t.Shows filters messageId r ∧ r.folderId = folderId := by
  rw [shownFolderId,List.min?_eq_some_iff] at h
  obtain ⟨hmem,hleast⟩ := h
  obtain ⟨r,hr,rfl⟩ := List.mem_map.mp hmem
  obtain ⟨hr,heligible⟩ := List.mem_filter.mp hr
  refine ⟨r,⟨hr,heligible,fun s hs hse => ?_⟩,rfl⟩
  exact hleast _ (List.mem_map.mpr ⟨s,List.mem_filter.mpr ⟨hs,hse⟩,rfl⟩)

theorem Valid.pageRowsOf_of_shows (ht : t.Valid) {filters : MessageFilter} {m : Message}
    {r : Membership} (hshows : t.Shows filters m.id r)
    (hfolder : t.shownFolderId filters m.id = some r.folderId) :
    ∃ row, t.pageRowsOf filters m = [row] ∧ row.message = m ∧ row.membership = r := by
  have hmessage : r.messageId = m.id := by
    have := hshows.eligible
    simp only [isEligible,Bool.and_eq_true,beq_iff_eq] at this
    exact this.1
  have hmembership : (t.memberships.filter fun s => s.messageId == m.id &&
      some s.folderId == t.shownFolderId filters m.id) = [r] := by
    refine ht.membershipKey.filter_eq (k := (m.id,r.folderId)) hshows.stored ?_ ?_
    · simp [hmessage,hfolder]
    · intro s _ hs
      simp only [hfolder,Bool.and_eq_true,beq_iff_eq,Option.some.injEq] at hs
      rw [hs.1,hs.2]
  obtain ⟨f,hf,hid⟩ := ht.membershipFolder r hshows.stored
  have hfolders : (t.folders.filter fun g => g.id == r.folderId) = [f] := by
    refine ht.folderId.filter_eq (k := r.folderId) hf (by simp [hid]) ?_
    intro g _ hg
    rw [beq_iff_eq] at hg
    rw [hg]
  obtain ⟨movedTo,hmovedTo⟩ := leftJoin_eq_singleton (ht.movedToFolders_le_one r)
  obtain ⟨failure,hfailure⟩ := leftJoin_eq_singleton (ht.failuresOf_le_one m r)
  refine ⟨⟨m,r,f,movedTo,failure⟩,?_,rfl,rfl⟩
  simp [pageRowsOf,hmembership,hfolders,hmovedTo,hfailure]

/-- A message is joined to one row, or to none when no membership is eligible. -/
theorem Valid.pageRowsOf_cases (ht : t.Valid) (filters : MessageFilter) (m : Message) :
    (t.pageRowsOf filters m = [] ∧ t.memberships.any (isEligible filters m.id) = false) ∨
      ∃ row, t.pageRowsOf filters m = [row] ∧ row.message = m ∧
        t.Shows filters m.id row.membership := by
  cases hfolder : t.shownFolderId filters m.id with
  | none =>
    refine .inl ⟨by simp [pageRowsOf,hfolder],?_⟩
    rw [shownFolderId,List.min?_eq_none_iff,List.map_eq_nil_iff,List.filter_eq_nil_iff] at hfolder
    simpa using hfolder
  | some folderId =>
    obtain ⟨r,hshows,rfl⟩ := shows_of_shownFolderId hfolder
    obtain ⟨row,hrow,hmessage,rfl⟩ := ht.pageRowsOf_of_shows hshows hfolder
    exact .inr ⟨row,hrow,hmessage,hshows⟩

/-- The messages of the joined rows, in the order of the table. -/
theorem Valid.map_pageRowsOf (ht : t.Valid) (filters : MessageFilter) (messages : List Message) :
    (messages.flatMap (t.pageRowsOf filters)).map PageRow.message =
      messages.filter fun m => t.memberships.any (isEligible filters m.id) := by
  induction messages with
  | nil => rfl
  | cons m messages ih =>
    rw [List.flatMap_cons,List.map_append,ih]
    rcases ht.pageRowsOf_cases filters m with ⟨hrows,hnone⟩ | ⟨row,hrows,hmessage,hshows⟩
    · simp [hrows,hnone]
    · have hany : t.memberships.any (isEligible filters m.id) = true :=
        List.any_eq_true.mpr ⟨row.membership,hshows.stored,hshows.eligible⟩
      rw [hrows,List.filter_cons,if_pos hany]
      simp [hmessage]

theorem Valid.shows_of_mem (ht : t.Valid) {filters : MessageFilter} {messages : List Message}
    {row : PageRow} (hrow : row ∈ messages.flatMap (t.pageRowsOf filters)) :
    row.message ∈ messages ∧ t.Shows filters row.message.id row.membership := by
  obtain ⟨m,hm,hrow⟩ := List.mem_flatMap.mp hrow
  rcases ht.pageRowsOf_cases filters m with ⟨hrows,-⟩ | ⟨row',hrows,rfl,hshows⟩
  · simp [hrows] at hrow
  · rw [hrows,List.mem_singleton] at hrow
    subst hrow
    exact ⟨hm,hshows⟩

end Tables

/-! The rows of a listing. -/

section
variable (repo : Repository) (index : SearchIndex) (plan : Option SearchPlan)
  (filters : MessageFilter)

/-- The messages that a search or a listing asks for. -/
def wantedMessages : List Message :=
  repo.tables.messages.filter (isWanted index repo.tables plan filters)

theorem joinedRows_map_message :
    (joinedRows index repo.tables plan filters).map PageRow.message =
      (wantedMessages repo index plan filters).filter fun m =>
        repo.tables.memberships.any (Tables.isEligible filters m.id) := by
  have hcomm : ∀ rows : List PageRow, (rows.filter fun row =>
      isWanted index repo.tables plan filters row.message).map PageRow.message =
      (rows.map PageRow.message).filter (isWanted index repo.tables plan filters) := by
    intro rows
    rw [List.filter_map]
    rfl
  rw [joinedRows,hcomm,repo.valid.map_pageRowsOf,wantedMessages,List.filter_filter,
    List.filter_filter]
  exact List.filter_congr fun m _ => Bool.and_comm _ _

theorem joinedRows_shows {row : PageRow} (hrow : row ∈ joinedRows index repo.tables plan filters) :
    row.message ∈ wantedMessages repo index plan filters ∧
      repo.tables.Shows filters row.message.id row.membership := by
  obtain ⟨hrow,hwanted⟩ := List.mem_filter.mp hrow
  obtain ⟨hmessage,hshows⟩ := repo.valid.shows_of_mem hrow
  exact ⟨List.mem_filter.mpr ⟨hmessage,hwanted⟩,hshows⟩

/-- No two rows are about the same message. -/
theorem joinedRows_pairwise_id :
    (joinedRows index repo.tables plan filters).Pairwise fun a b => a.message.id ≠ b.message.id := by
  have hmessages : repo.tables.messages.Pairwise fun a b => a.id ≠ b.id :=
    repo.valid.messageId.imp fun hab => by simpa using hab
  have hmap : ((joinedRows index repo.tables plan filters).map PageRow.message).Pairwise
      fun a b => a.id ≠ b.id := by
    rw [joinedRows_map_message]
    exact hmessages.sublist (List.filter_sublist.trans List.filter_sublist)
  rwa [List.pairwise_map] at hmap

theorem joinedRows_pairwise_key :
    (joinedRows index repo.tables plan filters).Pairwise fun a b => a.key ≠ b.key := by
  refine (joinedRows_pairwise_id repo index plan filters).imp fun hab hkey => hab ?_
  have := congrArg (fun k => (ofLex k).2) hkey
  exact this

/-- The rows of the whole listing, in its order. -/
def listing : List PageRow := Keyset.descend PageRow.key (joinedRows index repo.tables plan filters)

theorem listing_descending : Keyset.Descending PageRow.key (listing repo index plan filters) :=
  Keyset.descending_descend (joinedRows_pairwise_key repo index plan filters)

theorem selectedRows_eq (cursor : Option PageCursor) :
    selectedRows index repo.tables plan filters cursor =
      Keyset.after PageRow.key (cursor.map PageCursor.key) (listing repo index plan filters) :=
  Keyset.descend_after (joinedRows_pairwise_key repo index plan filters) _

end

/-! Dates. -/

/-- Every date of a message is missing or was written by `to_utc_iso8601`. -/
def Tables.DatesWritten (t : Tables) : Prop :=
  ∀ m ∈ t.messages, DateWritten m.envelope.dateSent ∧ DateWritten m.envelope.internalDate

/-- The dates of the record a write adds are missing or written by `to_utc_iso8601`. -/
def WriteOp.DatesWritten (op : WriteOp) : Prop :=
  ∀ record contents, op = .addMessage record contents →
    DateWritten record.envelope.dateSent ∧ DateWritten record.envelope.internalDate

/-- Syncs, merges, moves and deletes change the database by such writes alone. -/
theorem WriteOp.apply_datesWritten {op : WriteOp} {repo repo' : Repository}
    (h : op.apply repo = .ok repo') (hop : op.DatesWritten) (hdates : repo.tables.DatesWritten) :
    repo'.tables.DatesWritten := by
  intro m' hm'
  rcases WriteOp.apply_envelope h hm' with ⟨m,hm,henvelope⟩ | ⟨record,contents,rfl,henvelope⟩
  · rw [henvelope]
    exact hdates m hm
  · rw [henvelope]
    exact hop record contents rfl

/-- The cursor of a row, read from its summary, is the key of the row. -/
theorem PageRow.cursor_key {row : PageRow} (hsent : DateWritten row.message.envelope.dateSent)
    (hinternal : DateWritten row.message.envelope.internalDate) :
    PageCursor.key ⟨row.summary.sortKey,row.summary.id⟩ = row.key := by
  have hkey : row.summary.sortKey = row.message.dateKey := by
    have hor : ∀ a b : Option Stamp, (a.or b).map Stamp.dbDatetime =
        (a.map Stamp.dbDatetime).or (b.map Stamp.dbDatetime) := by
      intro a b
      cases a <;> rfl
    simp only [MessageSummary.sortKey,PageRow.summary,hor,hsent.read_write,hinternal.read_write,
      Message.dateKey]
  simp only [PageCursor.key,PageRow.key,Message.pageKey,hkey]
  rfl

/-! Following the cursors. -/

/-- A page that holds the first rows of what is left. -/
structure SearchPage.IsFirst (p : SearchPage) (rest : List PageRow) (limit : Nat) : Prop where
  items : p.items = (rest.take limit).map PageRow.summary
  exhausted : p.exhausted = !decide (limit < rest.length)
  nextCursor : limit < rest.length → p.nextCursor =
    (rest.take limit).getLast?.map fun row => ⟨row.summary.sortKey,row.summary.id⟩

section
variable {repo : Repository} {index : SearchIndex} {plan : Option SearchPlan}
  {filters : MessageFilter} {limit : Nat}

theorem page_isFirst (cursor : Option PageCursor) (hlimit : 0 < limit) :
    ∃ p, page index repo.tables plan filters cursor limit = .ok p ∧
      p.IsFirst (Keyset.after PageRow.key (cursor.map PageCursor.key)
        (listing repo index plan filters)) limit := by
  refine ⟨_,if_neg (by omega),?_,?_,?_⟩
  · simp only [selectedRows_eq,List.take_take]
    rw [Nat.min_eq_left (by omega)]
  · simp only [selectedRows_eq,List.length_take]
    congr 2
    exact propext ⟨fun h => by omega,fun h => by omega⟩
  · intro hmore
    simp only [selectedRows_eq,List.length_take,List.take_take]
    rw [if_pos (by simpa using hmore),Nat.min_eq_left (by omega),List.getLast?_map]
    simp [Function.comp_def]

/-- A loop over such pages reads what is left, in as many rounds as there are rows. -/
theorem followPages_rest (hdates : repo.tables.DatesWritten) (hlimit : 0 < limit)
    {fetch : Option PageCursor → Except SearchError SearchPage}
    (hfetch : ∀ cursor, ∃ p, fetch cursor = .ok p ∧
      p.IsFirst (Keyset.after PageRow.key (cursor.map PageCursor.key)
        (listing repo index plan filters)) limit)
    {rounds : Nat} {cursor : Option PageCursor} {results : List MessageSummary}
    (hrounds : (Keyset.after PageRow.key (cursor.map PageCursor.key)
      (listing repo index plan filters)).length < rounds) :
    followPages fetch rounds cursor results = .ok (some (results ++
      (Keyset.after PageRow.key (cursor.map PageCursor.key)
        (listing repo index plan filters)).map PageRow.summary)) := by
  induction rounds generalizing cursor results with
  | zero => omega
  | succ rounds ih =>
    obtain ⟨p,hp,hfirst⟩ := hfetch cursor
    set rest := Keyset.after PageRow.key (cursor.map PageCursor.key)
      (listing repo index plan filters) with hrest
    simp only [followPages,hp,bind,Except.bind,hfirst.exhausted,hfirst.items]
    by_cases hmore : limit < rest.length
    · have hnonempty : rest.take limit ≠ [] := by
        rw [ne_eq,List.take_eq_nil_iff]
        rintro (h | h)
        · omega
        · simp [h] at hmore
      obtain ⟨last,hlast⟩ := List.getLast?_isSome.mpr hnonempty |> Option.isSome_iff_exists.mp
      have hstored : last.message ∈ repo.tables.messages := by
        have hin : last ∈ listing repo index plan filters :=
          List.mem_of_mem_filter (List.mem_of_mem_take (List.mem_of_getLast? hlast))
        have hjoined := (Keyset.perm_descend _).mem_iff.mp hin
        exact List.mem_of_mem_filter (joinedRows_shows repo index plan filters hjoined).1
      have hkey := PageRow.cursor_key (hdates _ hstored).1 (hdates _ hstored).2
      have hdrop : Keyset.after PageRow.key
          ((some ⟨last.summary.sortKey,last.summary.id⟩ : Option PageCursor).map PageCursor.key)
          (listing repo index plan filters) = rest.drop limit := by
        rw [Option.map_some,hkey]
        exact (listing_descending repo index plan filters).after_page hlast
      have hlength : (rest.drop limit).length < rounds := by
        rw [List.length_drop]
        omega
      rw [hfirst.nextCursor hmore,hlast]
      simp only [hmore,decide_true,Bool.not_true,Bool.false_eq_true,if_false,Option.map_some]
      rw [ih (hdrop ▸ hlength),hdrop,List.append_assoc,← List.map_append,List.take_append_drop]
    · simp only [hmore,decide_false,Bool.not_false,if_true]
      rw [List.take_of_length_le (by omega)]

end

/-- A loop that has come to an end gives the same answer however long one waits. -/
theorem followPages_mono {fetch : Option PageCursor → Except SearchError SearchPage}
    {rounds more : Nat} {cursor : Option PageCursor} {results all : List MessageSummary}
    (h : followPages fetch rounds cursor results = .ok (some all)) (hle : rounds ≤ more) :
    followPages fetch more cursor results = .ok (some all) := by
  induction rounds generalizing more cursor results with
  | zero => cases h
  | succ rounds ih =>
    obtain ⟨more,rfl⟩ := Nat.exists_eq_succ_of_ne_zero (show more ≠ 0 by omega)
    simp only [followPages] at h ⊢
    cases hp : fetch cursor with
    | error e => rw [hp] at h; cases h
    | ok p =>
      simp only [hp,bind,Except.bind] at h ⊢
      by_cases hexhausted : p.exhausted = true
      · rwa [if_pos hexhausted] at h ⊢
      · rw [if_neg hexhausted] at h ⊢
        cases hnext : p.nextCursor with
        | none => rwa [hnext] at h
        | some c =>
          rw [hnext] at h
          exact ih h (by omega)

theorem followPages_unique {fetch : Option PageCursor → Except SearchError SearchPage}
    {n m : Nat} {cursor : Option PageCursor} {results a b : List MessageSummary}
    (ha : followPages fetch n cursor results = .ok (some a))
    (hb : followPages fetch m cursor results = .ok (some b)) : a = b := by
  have ha' := followPages_mono ha (Nat.le_max_left n m)
  have hb' := followPages_mono hb (Nat.le_max_right n m)
  simpa using ha'.symm.trans hb'

/-! Completeness of a listing. -/

section
variable (repo : Repository) (index : SearchIndex) (plan : Option SearchPlan)
  (filters : MessageFilter)

/-- Each message asked for once, by date and then by id, highest first. -/
structure ListsAll (results : List MessageSummary) : Prop where
  sound : ∀ s ∈ results, ∃ m ∈ wantedMessages repo index plan filters, m.id = s.id
  complete : ∀ m ∈ wantedMessages repo index plan filters, ∃ s ∈ results, s.id = m.id
  once : (results.map MessageSummary.id).Nodup
  ordered : results.Pairwise fun a b =>
    ∀ m ∈ repo.tables.messages, ∀ n ∈ repo.tables.messages, m.id = a.id → n.id = b.id →
      n.pageKey < m.pageKey

/-- Whatever the size of a page, the cursors lead through these rows. -/
def PagesThrough (results : List MessageSummary) : Prop :=
  ∀ limit, 0 < limit → ∃ rounds,
    followPages (fun cursor => page index repo.tables plan filters cursor limit) rounds none [] =
      .ok (some results)

/-- Every message asked for lies in some folder. -/
def AllFiled : Prop :=
  ∀ m ∈ wantedMessages repo index plan filters, ∃ r ∈ repo.tables.memberships, r.messageId = m.id

variable {repo index plan filters}

theorem mem_listing {row : PageRow} (h : row ∈ listing repo index plan filters) :
    row.message ∈ wantedMessages repo index plan filters ∧
      repo.tables.Shows filters row.message.id row.membership :=
  joinedRows_shows repo index plan filters ((Keyset.perm_descend _).mem_iff.mp h)

/-- A wanted message that lies in a folder lies in one of those asked for. -/
theorem isEligible_of_filed {m : Message} (hm : m ∈ wantedMessages repo index plan filters)
    {r : Membership} (hr : r ∈ repo.tables.memberships) (hid : r.messageId = m.id) :
    repo.tables.memberships.any (Tables.isEligible filters m.id) = true := by
  have hwanted := (List.mem_filter.mp hm).2
  cases hfolders : filters.folderIds with
  | none => exact List.any_eq_true.mpr ⟨r,hr,by simp [Tables.isEligible,hfolders,hid]⟩
  | some ids =>
    simp only [isWanted,MessageFilter.matches,hfolders,Option.all_some,Bool.and_eq_true] at hwanted
    obtain ⟨s,hs,hmatch⟩ := List.any_eq_true.mp hwanted.2.1.1.1.1.1.1.2
    refine List.any_eq_true.mpr ⟨s,hs,?_⟩
    simpa [Tables.isEligible,hfolders] using hmatch

theorem exists_mem_listing {m : Message} (hm : m ∈ wantedMessages repo index plan filters)
    {r : Membership} (hr : r ∈ repo.tables.memberships) (hid : r.messageId = m.id) :
    ∃ row ∈ listing repo index plan filters, row.message = m := by
  have hmem : m ∈ (joinedRows index repo.tables plan filters).map PageRow.message := by
    rw [joinedRows_map_message,List.mem_filter]
    exact ⟨hm,isEligible_of_filed hm hr hid⟩
  obtain ⟨row,hrow,hmessage⟩ := List.mem_map.mp hmem
  exact ⟨row,(Keyset.perm_descend _).mem_iff.mpr hrow,hmessage⟩

theorem listing_once : ((listing repo index plan filters).map fun row => row.message.id).Nodup := by
  have hsymm : ∀ {a b : PageRow}, a.message.id ≠ b.message.id → b.message.id ≠ a.message.id :=
    fun h => h.symm
  rw [List.Nodup,List.pairwise_map]
  exact (List.Perm.pairwise_iff hsymm (Keyset.perm_descend _)).mpr
    (joinedRows_pairwise_id repo index plan filters)

theorem listing_ordered : ((listing repo index plan filters).map PageRow.summary).Pairwise
    fun a b => ∀ m ∈ repo.tables.messages, ∀ n ∈ repo.tables.messages, m.id = a.id → n.id = b.id →
      n.pageKey < m.pageKey := by
  rw [List.pairwise_map]
  refine List.Pairwise.imp_of_mem ?_ (listing_descending repo index plan filters)
  intro a b ha hb hab m hm n hn hma hnb
  have hma' : m = a.message := repo.valid.messageId.eq_of_key hm
    (List.mem_of_mem_filter (mem_listing ha).1) (congrArg some hma) rfl
  have hnb' : n = b.message := repo.valid.messageId.eq_of_key hn
    (List.mem_of_mem_filter (mem_listing hb).1) (congrArg some hnb) rfl
  rw [hma',hnb']
  exact hab

theorem listing_listsAll (hfiled : AllFiled repo index plan filters) :
    ListsAll repo index plan filters ((listing repo index plan filters).map PageRow.summary) where
  sound := by
    intro s hs
    obtain ⟨row,hrow,rfl⟩ := List.mem_map.mp hs
    exact ⟨row.message,(mem_listing hrow).1,rfl⟩
  complete := by
    intro m hm
    obtain ⟨r,hr,hid⟩ := hfiled m hm
    obtain ⟨row,hrow,rfl⟩ := exists_mem_listing hm hr hid
    exact ⟨row.summary,List.mem_map.mpr ⟨row,hrow,rfl⟩,rfl⟩
  once := by
    rw [List.map_map]
    exact listing_once
  ordered := listing_ordered

/-- Any loop over the pages of the listing reads the whole of it. -/
theorem followPages_listing (hdates : repo.tables.DatesWritten) {limit : Nat} (hlimit : 0 < limit)
    {fetch : Option PageCursor → Except SearchError SearchPage}
    (hfetch : ∀ cursor, ∃ p, fetch cursor = .ok p ∧
      p.IsFirst (Keyset.after PageRow.key (cursor.map PageCursor.key)
        (listing repo index plan filters)) limit) :
    ∃ rounds, followPages fetch rounds none [] =
      .ok (some ((listing repo index plan filters).map PageRow.summary)) := by
  refine ⟨(listing repo index plan filters).length + 1,?_⟩
  rw [followPages_rest hdates hlimit hfetch (by simp)]
  simp

theorem pagesThrough_listing (hdates : repo.tables.DatesWritten) :
    PagesThrough repo index plan filters ((listing repo index plan filters).map PageRow.summary) :=
  fun _ hlimit => followPages_listing hdates hlimit fun cursor => page_isFirst cursor hlimit

theorem pagesThrough_eq_listing (hdates : repo.tables.DatesWritten) {results : List MessageSummary}
    (h : PagesThrough repo index plan filters results) :
    results = (listing repo index plan filters).map PageRow.summary := by
  obtain ⟨n,hn⟩ := h 1 Nat.one_pos
  obtain ⟨m,hm⟩ := pagesThrough_listing hdates 1 Nat.one_pos
  exact followPages_unique hn hm

end

/-- The plan of the text in the search box; without a text everything is listed. -/
def queryPlan (normalizeForSearch : String → String) (query : String) (mode : SearchMode) :
    Except SearchQueryError (Option SearchPlan) :=
  if query = "" then .ok none else (parseQuery normalizeForSearch query mode).map some

/-- `list_all_messages` comes to an end with the whole listing. -/
theorem listAllMessages_listing {repo : Repository} (hdates : repo.tables.DatesWritten)
    {normalizeForSearch : String → String} {index : SearchIndex} {query : String}
    {mode : SearchMode} {filters : MessageFilter} {plan : Option SearchPlan}
    (hplan : queryPlan normalizeForSearch query mode = .ok plan) :
    ∃ rounds, listAllMessages normalizeForSearch index repo.tables query mode filters rounds =
      .ok (some ((listing repo index plan filters).map PageRow.summary)) := by
  have hlimit : 0 < 200 := by decide
  refine followPages_listing hdates hlimit fun cursor => ?_
  by_cases hquery : query = ""
  · rw [queryPlan,if_pos hquery] at hplan
    cases hplan
    rw [if_neg (by simp [hquery])]
    exact page_isFirst cursor hlimit
  · rw [queryPlan,if_neg hquery] at hplan
    rw [if_pos hquery]
    cases hparse : parseQuery normalizeForSearch query mode with
    | error e => rw [hparse] at hplan; cases hplan
    | ok parsed =>
      rw [hparse] at hplan
      cases hplan
      obtain ⟨p,hp,hfirst⟩ : ∃ p, page index repo.tables (some parsed) filters cursor 200 = .ok p ∧
          p.IsFirst (Keyset.after PageRow.key (cursor.map PageCursor.key)
            (listing repo index (some parsed) filters)) 200 := page_isFirst cursor hlimit
      refine ⟨{ p with hasSlowPath := parsed.hasSlowPath },?_,⟨hfirst.1,hfirst.2,hfirst.3⟩⟩
      simp [searchMessages,hparse,hp,Except.mapError,bind,Except.bind,pure,Except.pure]

/-- The pages hold every message asked for once and in order, and `list_all_messages`
collects them, exactly when every such message lies in a folder: the listing joins each
message with one of its memberships. -/
theorem pages_complete_iff (repo : Repository) (index : SearchIndex) (plan : Option SearchPlan)
    (filters : MessageFilter) (hdates : repo.tables.DatesWritten) :
    (∃ results, ListsAll repo index plan filters results ∧
      PagesThrough repo index plan filters results ∧
      ∀ normalizeForSearch query mode, queryPlan normalizeForSearch query mode = .ok plan →
        ∃ rounds, listAllMessages normalizeForSearch index repo.tables query mode filters rounds =
          .ok (some results)) ↔
      ∀ m ∈ wantedMessages repo index plan filters,
        ∃ r ∈ repo.tables.memberships, r.messageId = m.id := by
  constructor
  · rintro ⟨results,hall,hpages,-⟩ m hm
    obtain ⟨s,hs,hid⟩ := hall.complete m hm
    rw [pagesThrough_eq_listing hdates hpages] at hs
    obtain ⟨row,hrow,rfl⟩ := List.mem_map.mp hs
    have hshows := (mem_listing hrow).2
    have heligible := hshows.eligible
    simp only [Tables.isEligible,Bool.and_eq_true,beq_iff_eq] at heligible
    exact ⟨row.membership,hshows.stored,heligible.1.trans hid⟩
  · intro hfiled
    exact ⟨_,listing_listsAll hfiled,pagesThrough_listing hdates,
      fun _ _ _ hplan => listAllMessages_listing hdates hplan⟩

/-- One message of an account, in the given folders. -/
def oneMessage (memberships : List Membership) : Tables where
  accounts := [{ id := "a" }]
  folders := [{ id := 1, accountId := "a", rawName := "INBOX", displayName := "INBOX" },
    { id := 2, accountId := "a", rawName := "All", displayName := "All" }]
  messages := [
    { id := 1, accountId := "a", messageId := none, contentKey := "k", sourceItemKey := .gmail 7,
      relativePath := none, fileHash := none,
      envelope := { dateSent := some "2024-05-01T10:00:00Z" }, sizeBytes := none }]
  memberships := memberships
  nextFolderId := 3
  nextMessageId := 2

theorem oneMessage_datesWritten (memberships : List Membership) :
    (oneMessage memberships).DatesWritten := by
  intro m hm
  rw [oneMessage,List.mem_singleton] at hm
  subst hm
  refine ⟨?_,?_⟩
  · intro text htext
    obtain rfl : "2024-05-01T10:00:00Z" = text := by simpa using htext
    exact ⟨⟨2024,5,1,10,0,0⟩,⟨by decide,by decide,by decide,by decide,by decide,by decide⟩,
      by decide⟩
  · intro text htext
    cases htext

def inboxMessage : Repository :=
  ⟨oneMessage [{ messageId := 1, folderId := 1, uid := some 5, uidvalidity := some 9 }],
    by decide⟩

def noText : SearchIndex := ⟨[],fun _ => []⟩

/-- Three messages: the first in both folders and deleted from the inbox, the last one without a
date in its header. -/
def threeMessages : Tables where
  accounts := [{ id := "a" }]
  folders := [{ id := 1, accountId := "a", rawName := "INBOX", displayName := "INBOX" },
    { id := 2, accountId := "a", rawName := "All", displayName := "All" }]
  messages := [
    { id := 1, accountId := "a", messageId := none, contentKey := "k", sourceItemKey := .gmail 7,
      relativePath := none, fileHash := none,
      envelope := { dateSent := some "2024-05-01T10:00:00Z" }, sizeBytes := none },
    { id := 2, accountId := "a", messageId := none, contentKey := "l", sourceItemKey := .gmail 8,
      relativePath := none, fileHash := none,
      envelope := { dateSent := some "2024-05-03T10:00:00Z" }, sizeBytes := none },
    { id := 3, accountId := "a", messageId := none, contentKey := "m", sourceItemKey := .gmail 9,
      relativePath := none, fileHash := none,
      envelope := { internalDate := some "2024-05-02T10:00:00Z" }, sizeBytes := none }]
  memberships := [
    { messageId := 1, folderId := 1, uid := some 5, uidvalidity := some 9,
      remoteState := .deleted },
    { messageId := 1, folderId := 2, uid := some 8, uidvalidity := some 9 },
    { messageId := 2, folderId := 1, uid := some 6, uidvalidity := some 9 },
    { messageId := 3, folderId := 2, uid := some 9, uidvalidity := some 9 }]
  nextFolderId := 3
  nextMessageId := 4

def threeStored : Repository := ⟨threeMessages,by decide⟩

theorem dateWritten_some {text : String} {d : DateTime} (hd : d.WellFormed)
    (htext : text = toUtcIso8601 d) : DateWritten (some text) := by
  intro t ht
  obtain rfl := Option.mem_some_iff.mp ht
  exact ⟨d,hd,htext⟩

theorem threeMessages_datesWritten : threeMessages.DatesWritten := by
  have hday : ∀ day, 1 ≤ day ∧ day ≤ 31 → (⟨2024,5,day,10,0,0⟩ : DateTime).WellFormed :=
    fun day h => ⟨by simp,by simp,h,by simp,by simp,by simp⟩
  have hmissing : DateWritten none := nofun
  have h1 : DateWritten (some "2024-05-01T10:00:00Z") :=
    dateWritten_some (hday 1 (by decide)) (by decide)
  have h2 : DateWritten (some "2024-05-02T10:00:00Z") :=
    dateWritten_some (hday 2 (by decide)) (by decide)
  have h3 : DateWritten (some "2024-05-03T10:00:00Z") :=
    dateWritten_some (hday 3 (by decide)) (by decide)
  intro m hm
  simp only [threeMessages,List.mem_cons,List.not_mem_nil,or_false] at hm
  rcases hm with rfl | rfl | rfl
  · exact ⟨h1,hmissing⟩
  · exact ⟨h3,hmissing⟩
  · exact ⟨hmissing,h2⟩

/-- The three messages, two on the first page and one on the second. -/
theorem pages_complete_three :
    (∃ results, ListsAll threeStored noText none {} results ∧
      PagesThrough threeStored noText none {} results ∧
      (∀ normalizeForSearch query mode, queryPlan normalizeForSearch query mode = .ok none →
        ∃ rounds, listAllMessages normalizeForSearch noText threeStored.tables query mode {}
          rounds = .ok (some results)) ∧
      results.map MessageSummary.id = [2,3,1]) ∧
    (page noText threeMessages none {} none 2).map
      (fun p => (p.items.map MessageSummary.id,p.exhausted)) = .ok ([2,3],false) := by
  obtain ⟨results,hall,hpages,hlist⟩ :=
    (pages_complete_iff threeStored noText none {} threeMessages_datesWritten).mpr (by decide)
  refine ⟨⟨results,hall,hpages,hlist,?_⟩,by decide⟩
  rw [pagesThrough_eq_listing threeMessages_datesWritten hpages]
  decide

/-- A message whose memberships were replaced by an empty snapshot is asked for and counted,
but no page shows it. -/
theorem unfiled_message_not_listed :
    ∃ repo, inboxMessage.replaceMessageMemberships 1 [] = .ok repo ∧ repo.tables.DatesWritten ∧
      (wantedMessages repo noText none {}).map Message.id = [1] ∧
      page noText repo.tables none {} none 200 = .ok ⟨[],none,true,false⟩ ∧
      ¬ ∃ results, ListsAll repo noText none {} results ∧
        PagesThrough repo noText none {} results := by
  have hdates := oneMessage_datesWritten []
  refine ⟨⟨oneMessage [],by decide⟩,by decide,hdates,by decide,by decide,?_⟩
  rintro ⟨results,hall,hpages⟩
  have hempty : results = [] := by
    rw [pagesThrough_eq_listing hdates hpages]
    decide
  subst hempty
  obtain ⟨s,hs,-⟩ := hall.complete _ (List.mem_filter.mpr ⟨List.mem_singleton.mpr rfl,by
    decide⟩)
  cases hs

end MailDock
