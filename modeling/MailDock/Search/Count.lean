import MailDock.Search.Listing

/-!
# Counting and listing

`count_messages` asks for the same messages as a listing but does not join them with
their folders, and the state filter looks at any membership while a row shows the one of
the lowest folder.
-/

namespace MailDock

section
variable (repo : Repository) (index : SearchIndex) (plan : Option SearchPlan)
  (filters : MessageFilter)

theorem wantedMessages_once :
    ((wantedMessages repo index plan filters).map Message.id).Nodup := by
  have hmessages : repo.tables.messages.Pairwise fun a b => a.id ≠ b.id :=
    repo.valid.messageId.imp fun hab => by simpa using hab
  rw [List.Nodup,List.pairwise_map]
  exact hmessages.sublist List.filter_sublist

theorem countMessages_eq :
    countMessages index repo.tables plan filters = (wantedMessages repo index plan filters).length := by
  have hdedup : ((wantedMessages repo index plan filters).map Message.id).dedup = _ :=
    (wantedMessages_once repo index plan filters).dedup
  rw [countMessages,← wantedMessages,hdedup,List.length_map]

/-- The number of listed messages. -/
theorem length_listing :
    (listing repo index plan filters).length =
      ((wantedMessages repo index plan filters).filter fun m =>
        repo.tables.memberships.any (Tables.isEligible filters m.id)).length := by
  rw [listing,(Keyset.perm_descend _).length_eq,← joinedRows_map_message,List.length_map]

variable {repo index plan filters}

theorem length_listing_eq_iff :
    (listing repo index plan filters).length = (wantedMessages repo index plan filters).length ↔
      AllFiled repo index plan filters := by
  rw [length_listing,List.length_filter_eq_length_iff]
  constructor
  · intro h m hm
    obtain ⟨r,hr,heligible⟩ := List.any_eq_true.mp (h m hm)
    simp only [Tables.isEligible,Bool.and_eq_true,beq_iff_eq] at heligible
    exact ⟨r,hr,heligible.1⟩
  · intro h m hm
    obtain ⟨r,hr,hid⟩ := h m hm
    exact isEligible_of_filed hm hr hid

/-- The folder a row shows is always one of those asked for. -/
theorem mem_folderIds_of_mem_listing {row : PageRow} (h : row ∈ listing repo index plan filters) :
    ∀ ids ∈ filters.folderIds, row.summary.folderId ∈ ids := by
  intro ids hids
  have heligible := (mem_listing h).2.eligible
  simp only [Tables.isEligible,Bool.and_eq_true,Option.mem_def.mp hids,Option.all_some] at heligible
  simpa [PageRow.summary] using heligible.2

/-- A message is shown with the membership of its lowest folder. -/
theorem shows_eq {m : Message} {r s : Membership} (hr : repo.tables.Shows filters m.id r)
    (hs : repo.tables.Shows filters m.id s) : r = s := by
  have hrid := hr.eligible
  have hsid := hs.eligible
  simp only [Tables.isEligible,Bool.and_eq_true,beq_iff_eq] at hrid hsid
  have hfolder : r.folderId = s.folderId :=
    Nat.le_antisymm (hr.lowest s hs.stored hs.eligible) (hs.lowest r hr.stored hr.eligible)
  refine repo.valid.membershipKey.eq_of_key hr.stored hs.stored rfl ?_
  rw [hrid.1,hsid.1,hfolder]

/-- Count and listing agree, and each row shows a membership that satisfies the filter,
exactly when every message asked for lies in a folder and its membership in the lowest of the
folders asked for has one of the states asked for. -/
theorem count_listing_agree_iff (repo : Repository) (index : SearchIndex)
    (plan : Option SearchPlan) (filters : MessageFilter) (hdates : repo.tables.DatesWritten) :
    (∃ results, PagesThrough repo index plan filters results ∧
      countMessages index repo.tables plan filters =
        (results.map MessageSummary.id).dedup.length ∧
      ∀ s ∈ results, (∀ ids ∈ filters.folderIds, s.folderId ∈ ids) ∧
        ∀ states ∈ filters.remoteStates, s.remoteState ∈ states) ↔
      (∀ m ∈ wantedMessages repo index plan filters,
        ∃ r ∈ repo.tables.memberships, r.messageId = m.id) ∧
      ∀ states ∈ filters.remoteStates, ∀ m ∈ wantedMessages repo index plan filters,
        ∀ r, repo.tables.Shows filters m.id r → r.remoteState ∈ states := by
  have hcount : (((listing repo index plan filters).map PageRow.summary).map
      MessageSummary.id).dedup.length = (listing repo index plan filters).length := by
    have honce : (((listing repo index plan filters).map PageRow.summary).map
        MessageSummary.id).Nodup := by
      rw [List.map_map]
      exact listing_once
    rw [honce.dedup,List.length_map,List.length_map]
  constructor
  · rintro ⟨results,hpages,hagree,hrows⟩
    rw [pagesThrough_eq_listing hdates hpages] at hagree hrows
    rw [countMessages_eq,hcount] at hagree
    have hfiled := length_listing_eq_iff.mp hagree.symm
    refine ⟨hfiled,?_⟩
    intro states hstates m hm r hr
    obtain ⟨s,hs,hid⟩ := hfiled m hm
    obtain ⟨row,hrow,rfl⟩ := exists_mem_listing hm hs hid
    have hstate := (hrows row.summary (List.mem_map.mpr ⟨row,hrow,rfl⟩)).2 states hstates
    rw [shows_eq hr (mem_listing hrow).2]
    exact hstate
  · rintro ⟨hfiled,hstates⟩
    refine ⟨_,pagesThrough_listing hdates,?_,?_⟩
    · rw [countMessages_eq,hcount]
      exact (length_listing_eq_iff.mpr hfiled).symm
    · intro s hs
      obtain ⟨row,hrow,rfl⟩ := List.mem_map.mp hs
      obtain ⟨hwanted,hshows⟩ := mem_listing hrow
      exact ⟨mem_folderIds_of_mem_listing hrow,
        fun states hin => hstates states hin row.message hwanted row.membership hshows⟩

end

/-- Two of the three messages are still in the second folder; the copy that the first one had in
the inbox does not count. -/
theorem count_listing_agree_second_folder :
    ∃ results, PagesThrough threeStored noText none
        { folderIds := some [2], remoteStates := some [.present] } results ∧
      countMessages noText threeStored.tables none
        { folderIds := some [2], remoteStates := some [.present] } =
          (results.map MessageSummary.id).dedup.length ∧
      (∀ s ∈ results, (∀ ids ∈ some [2], s.folderId ∈ ids) ∧
        ∀ states ∈ some [RemoteState.present], s.remoteState ∈ states) ∧
      results.map MessageSummary.id = [3,1] := by
  have hstates : ∀ m ∈ threeStored.tables.messages, ∀ r ∈ threeStored.tables.memberships,
      Tables.isEligible { folderIds := some [2], remoteStates := some [.present] } m.id r = true →
        r.remoteState = .present := by decide
  obtain ⟨results,hpages,hcount,hrows⟩ := (count_listing_agree_iff threeStored noText none
    { folderIds := some [2], remoteStates := some [.present] } threeMessages_datesWritten).mpr
      ⟨by decide,by
        intro states hin m hm r hr
        cases hin
        exact List.mem_singleton.mpr
          (hstates m (List.mem_of_mem_filter hm) r hr.stored hr.eligible)⟩
  refine ⟨results,hpages,hcount,hrows,?_⟩
  rw [pagesThrough_eq_listing threeMessages_datesWritten hpages]
  decide

/-- A Gmail message in two folders, with the state of its copy in the first. -/
def twoFolders (state : RemoteState) : Repository :=
  ⟨oneMessage [
    { messageId := 1, folderId := 1, uid := some 5, uidvalidity := some 9, remoteState := state },
    { messageId := 1, folderId := 2, uid := some 8, uidvalidity := some 9 }],
    by cases state <;> decide⟩

/-- Once its copy in the first folder is found deleted, a listing of what is still on the
server shows the message as deleted; once its only copy is deleted remotely, the message is
counted and not listed. -/
theorem listed_row_outside_filter :
    ((WriteOp.updateRemoteState 1 .deleted none (some 1)).apply (twoFolders .present) =
        .ok (twoFolders .deleted) ∧
      ¬ ∃ results,
        PagesThrough (twoFolders .deleted) noText none { remoteStates := some [.present] } results ∧
        countMessages noText (twoFolders .deleted).tables none { remoteStates := some [.present] } =
          (results.map MessageSummary.id).dedup.length ∧
        ∀ s ∈ results, (∀ ids ∈ (none : Option (List Nat)), s.folderId ∈ ids) ∧
          ∀ states ∈ some [RemoteState.present], s.remoteState ∈ states) ∧
    ∃ repo, (WriteOp.replaceMessageMemberships 1 []).apply inboxMessage = .ok repo ∧
      countMessages noText repo.tables none {} = 1 ∧
      page noText repo.tables none {} none 200 = .ok ⟨[],none,true,false⟩ := by
  refine ⟨⟨by decide,?_⟩,⟨oneMessage [],by decide⟩,by decide,by decide,
    by decide⟩
  rintro ⟨results,hpages,-,hrows⟩
  rw [pagesThrough_eq_listing (oneMessage_datesWritten _) hpages] at hrows
  obtain ⟨s,hs,hdeleted⟩ : ∃ s ∈ (listing (twoFolders .deleted) noText none
      { remoteStates := some [.present] }).map PageRow.summary, s.remoteState = .deleted := by
    decide
  have hpresent := (hrows s hs).2 _ rfl
  rw [hdeleted] at hpresent
  exact absurd hpresent (by decide)

end MailDock
