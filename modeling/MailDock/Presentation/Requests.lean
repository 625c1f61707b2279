import MailDock.Domain.Messages

/-!
# Request generations

`RequestState` of `presentation/threads/request_state.py`, whose methods run under one lock, on
all channels, and the cancellation tokens that the callers of `issue` hold.

## Main definitions

- `RequestState` — the newest request of each channel
- `RequestRun` — what was issued and finished by the calls so far

## Main results

- `RequestRun.live_unique` — a channel has one request that may go on
- `RequestRun.isCurrent_iff` — whose answer is taken
- `RequestRun.spared` — what cancels a request
-/

namespace MailDock

inductive RequestChannel
  | listSearch | detailOpen | countThread | exportList | deleteList
deriving DecidableEq, Repr

/-- Tokens are told apart by the order in which they were made. -/
structure RequestHandle where
  channel : RequestChannel
  requestId : Nat
  token : Nat
deriving DecidableEq, Repr

structure RequestState where
  nextIds : RequestChannel → Nat := fun _ => 0
  current : RequestChannel → Option RequestHandle := fun _ => none
  /-- The number of tokens so far. -/
  tokens : Nat := 0
  /-- The tokens whose event is set. -/
  cancelled : List Nat := []

namespace RequestState

/-- The token of the current request of a channel is cancelled. -/
def cancelCurrent (s : RequestState) (channel : RequestChannel) : List Nat :=
  match s.current channel with
  | some current => current.token :: s.cancelled
  | none => s.cancelled

def issue (s : RequestState) (channel : RequestChannel) : RequestHandle × RequestState :=
  let handle := ⟨channel,s.nextIds channel + 1,s.tokens⟩
  (handle,
    { nextIds := Function.update s.nextIds channel (s.nextIds channel + 1)
      current := Function.update s.current channel (some handle)
      tokens := s.tokens + 1
      cancelled := s.cancelCurrent channel })

def cancel (s : RequestState) (channel : RequestChannel) : RequestState :=
  { s with cancelled := s.cancelCurrent channel }

def channels : List RequestChannel :=
  [.listSearch,.detailOpen,.countThread,.exportList,.deleteList]

def cancelAll (s : RequestState) : RequestState := channels.foldl cancel s

def isCurrent (s : RequestState) (channel : RequestChannel) (requestId : Nat) : Bool :=
  match s.current channel with
  | some current => current.requestId == requestId
  | none => false

def finish (s : RequestState) (handle : RequestHandle) : RequestState :=
  if s.current handle.channel = some handle then
    { s with current := Function.update s.current handle.channel none }
  else s

theorem isCurrent_eq_true_iff {s : RequestState} {channel : RequestChannel} {requestId : Nat} :
    s.isCurrent channel requestId = true ↔
      ∃ h, s.current channel = some h ∧ h.requestId = requestId := by
  unfold isCurrent
  cases s.current channel with
  | none => simp
  | some current => simp

theorem mem_cancelCurrent {s : RequestState} {channel : RequestChannel} {token : Nat} :
    token ∈ s.cancelCurrent channel ↔
      (∃ h, s.current channel = some h ∧ h.token = token) ∨ token ∈ s.cancelled := by
  unfold cancelCurrent
  cases s.current channel with
  | none => simp
  | some current => simp [eq_comm]

/-- `cancel_all` changes the tokens of the current requests only. -/
theorem foldl_cancel (channels : List RequestChannel) (s : RequestState) :
    (channels.foldl cancel s).nextIds = s.nextIds ∧ (channels.foldl cancel s).current = s.current ∧
      (channels.foldl cancel s).tokens = s.tokens ∧
      ∀ token, token ∈ (channels.foldl cancel s).cancelled ↔
        (∃ channel ∈ channels, ∃ h, s.current channel = some h ∧ h.token = token) ∨
          token ∈ s.cancelled := by
  induction channels generalizing s with
  | nil => simp
  | cons channel channels ih =>
    obtain ⟨hids,hcurrent,htokens,hcancelled⟩ := ih (s.cancel channel)
    refine ⟨hids,hcurrent,htokens,fun token => ?_⟩
    rw [List.foldl_cons,hcancelled]
    simp only [cancel,mem_cancelCurrent,List.mem_cons,exists_eq_or_imp]
    exact or_left_comm.trans or_assoc.symm

end RequestState

/-! ## Runs -/

/-- The calls of the threads, one after the other; `cancelToken` is a caller that cancels a token
it holds. -/
inductive RequestCall
  | issue (channel : RequestChannel)
  | cancel (channel : RequestChannel)
  | cancelAll
  | finish (handle : RequestHandle)
  | cancelToken (token : Nat)
deriving DecidableEq, Repr

structure RequestRun where
  state : RequestState := {}
  issued : List RequestHandle := []
  finished : List RequestHandle := []

namespace RequestRun

/-- Only a handle that was issued can be finished. -/
def step (r : RequestRun) : RequestCall → RequestRun
  | .issue channel =>
    { r with
      state := (r.state.issue channel).2
      issued := (r.state.issue channel).1 :: r.issued }
  | .cancel channel => { r with state := r.state.cancel channel }
  | .cancelAll => { r with state := r.state.cancelAll }
  | .finish handle =>
    if handle ∈ r.issued then
      { r with state := r.state.finish handle, finished := handle :: r.finished }
    else r
  | .cancelToken token =>
    { r with state := { r.state with cancelled := token :: r.state.cancelled } }

def run (r : RequestRun) (calls : List RequestCall) : RequestRun := calls.foldl step r

/-- A request that nobody has cancelled and that is not finished. -/
def Live (r : RequestRun) (h : RequestHandle) : Prop :=
  h ∈ r.issued ∧ h ∉ r.finished ∧ h.token ∉ r.state.cancelled

/-- What the calls keep. -/
structure Sound (r : RequestRun) : Prop where
  id_le : ∀ h ∈ r.issued, h.requestId ≤ r.state.nextIds h.channel
  reached : ∀ channel, r.state.nextIds channel ≠ 0 →
    ∃ h ∈ r.issued, h.channel = channel ∧ h.requestId = r.state.nextIds channel
  token_lt : ∀ h ∈ r.issued, h.token < r.state.tokens
  token_inj : ∀ h ∈ r.issued, ∀ h' ∈ r.issued, h.token = h'.token → h = h'
  finished : ∀ h ∈ r.finished, h ∈ r.issued
  current : ∀ channel h, r.state.current channel = some h →
    h ∈ r.issued ∧ h ∉ r.finished ∧ h.channel = channel ∧
      h.requestId = r.state.nextIds channel
  /-- The newest request of a channel is the current one until it is finished. -/
  newest : ∀ h ∈ r.issued, h ∉ r.finished → h.requestId = r.state.nextIds h.channel →
    r.state.current h.channel = some h
  /-- An older one is finished or cancelled. -/
  older : ∀ h ∈ r.issued, h ∉ r.finished → h.requestId < r.state.nextIds h.channel →
    h.token ∈ r.state.cancelled

theorem new_sound : Sound {} where
  id_le := nofun
  reached _ hne := absurd rfl hne
  token_lt := nofun
  token_inj := nofun
  finished := nofun
  current := nofun
  newest := nofun
  older := nofun

section
variable {r : RequestRun}

/-- More tokens are cancelled, and nothing else happens. -/
theorem Sound.cancelled (h : r.Sound) {s : RequestState} (hids : s.nextIds = r.state.nextIds)
    (hcurrent : s.current = r.state.current) (htokens : s.tokens = r.state.tokens)
    (hcancelled : ∀ token ∈ r.state.cancelled, token ∈ s.cancelled) :
    Sound { r with state := s } where
  id_le := by simpa only [hids] using h.id_le
  reached := by simpa only [hids] using h.reached
  token_lt := by simpa only [htokens] using h.token_lt
  token_inj := h.token_inj
  finished := h.finished
  current := by simpa only [hids,hcurrent] using h.current
  newest := by simpa only [hids,hcurrent] using h.newest
  older g hg hopen hlt := hcancelled _ (h.older g hg hopen (by simpa only [hids] using hlt))

theorem Sound.issue (h : r.Sound) (channel : RequestChannel) : (r.step (.issue channel)).Sound where
  id_le g hg := by
    rcases List.mem_cons.mp hg with rfl | hg
    · simp [step,RequestState.issue]
    · have hle := h.id_le g hg
      by_cases hc : g.channel = channel
      · simp only [step,RequestState.issue,← hc,Function.update_self]
        omega
      · simpa [step,RequestState.issue,hc] using hle
  reached c hne := by
    simp only [step,RequestState.issue] at hne ⊢
    by_cases hc : c = channel
    · subst hc
      exact ⟨_,List.mem_cons_self,rfl,by rw [Function.update_self]⟩
    · rw [Function.update_of_ne hc] at hne ⊢
      obtain ⟨g,hg,hrest⟩ := h.reached c hne
      exact ⟨g,List.mem_cons_of_mem _ hg,hrest⟩
  token_lt g hg := by
    rcases List.mem_cons.mp hg with rfl | hg
    · simp [step,RequestState.issue]
    · have hlt := h.token_lt g hg
      simp only [step,RequestState.issue]
      omega
  token_inj g hg g' hg' heq := by
    rcases List.mem_cons.mp hg with rfl | hg <;> rcases List.mem_cons.mp hg' with rfl | hg'
    · rfl
    · have hlt := h.token_lt g' hg'
      simp only [RequestState.issue] at heq
      omega
    · have hlt := h.token_lt g hg
      simp only [RequestState.issue] at heq
      omega
    · exact h.token_inj g hg g' hg' heq
  finished g hg := List.mem_cons_of_mem _ (h.finished g hg)
  current c g hg := by
    simp only [step,RequestState.issue] at hg ⊢
    by_cases hc : c = channel
    · subst hc
      rw [Function.update_self] at hg ⊢
      cases hg
      refine ⟨List.mem_cons_self,fun hfinished => ?_,rfl,rfl⟩
      exact absurd (h.token_lt _ (h.finished _ hfinished)) (Nat.lt_irrefl _)
    · rw [Function.update_of_ne hc] at hg ⊢
      obtain ⟨hmem,hrest⟩ := h.current c g hg
      exact ⟨List.mem_cons_of_mem _ hmem,hrest⟩
  newest g hg hopen hid := by
    rcases List.mem_cons.mp hg with rfl | hg
    · simp [step,RequestState.issue]
    · simp only [step,RequestState.issue] at hid ⊢
      by_cases hc : g.channel = channel
      · have hle := h.id_le g hg
        rw [hc,Function.update_self] at hid
        rw [hc] at hle
        omega
      · rw [Function.update_of_ne hc] at hid ⊢
        exact h.newest g hg hopen hid
  older g hg hopen hlt := by
    rcases List.mem_cons.mp hg with rfl | hg
    · simp [step,RequestState.issue] at hlt
    · simp only [step,RequestState.issue] at hlt ⊢
      rw [RequestState.mem_cancelCurrent]
      by_cases hc : g.channel = channel
      · -- the request that was the newest one is cancelled now
        rcases Nat.lt_or_ge g.requestId (r.state.nextIds channel) with hold | hnew
        · exact .inr (h.older g hg hopen (by rwa [hc]))
        · have heq : g.requestId = r.state.nextIds g.channel :=
            Nat.le_antisymm (h.id_le g hg) (by rwa [hc])
          exact .inl ⟨g,by rw [← hc]; exact h.newest g hg hopen heq,rfl⟩
      · rw [Function.update_of_ne hc] at hlt
        exact .inr (h.older g hg hopen hlt)

theorem Sound.finish (h : r.Sound) (handle : RequestHandle) (hmem : handle ∈ r.issued) :
    Sound { r with state := r.state.finish handle, finished := handle :: r.finished } := by
  have hids : (r.state.finish handle).nextIds = r.state.nextIds := by
    unfold RequestState.finish; split <;> rfl
  have htokens : (r.state.finish handle).tokens = r.state.tokens := by
    unfold RequestState.finish; split <;> rfl
  have hcancelled : (r.state.finish handle).cancelled = r.state.cancelled := by
    unfold RequestState.finish; split <;> rfl
  have hcurrent : ∀ c g, (r.state.finish handle).current c = some g ↔
      r.state.current c = some g ∧ g ≠ handle := by
    intro c g
    unfold RequestState.finish
    split
    · next hcur =>
      by_cases hc : c = handle.channel
      · subst hc
        simp [hcur,eq_comm]
      · simp only [Function.update_of_ne hc]
        refine ⟨fun hg => ⟨hg,?_⟩,And.left⟩
        rintro rfl
        exact hc ((h.current c g hg).2.2.1).symm
    · next hcur =>
      refine ⟨fun hg => ⟨hg,?_⟩,And.left⟩
      rintro rfl
      rw [(h.current c g hg).2.2.1] at hcur
      exact hcur hg
  exact
    { id_le := by simpa only [hids] using h.id_le
      reached := by simpa only [hids] using h.reached
      token_lt := by simpa only [htokens] using h.token_lt
      token_inj := h.token_inj
      finished := fun g hg => (List.mem_cons.mp hg).elim (fun heq => heq ▸ hmem) (h.finished g)
      current := fun c g hg => by
        obtain ⟨hcur,hne⟩ := (hcurrent c g).mp hg
        obtain ⟨hissued,hopen,hrest⟩ := h.current c g hcur
        rw [hids]
        exact ⟨hissued,fun hin => (List.mem_cons.mp hin).elim hne hopen,hrest⟩
      newest := fun g hg hopen hid => by
        rw [List.mem_cons,not_or] at hopen
        rw [hids] at hid
        exact (hcurrent _ _).mpr ⟨h.newest g hg hopen.2 hid,hopen.1⟩
      older := fun g hg hopen hlt => by
        rw [List.mem_cons,not_or] at hopen
        rw [hids] at hlt
        rw [hcancelled]
        exact h.older g hg hopen.2 hlt }

theorem Sound.step (h : r.Sound) (call : RequestCall) : (r.step call).Sound := by
  cases call with
  | issue channel => exact h.issue channel
  | cancel channel =>
    exact h.cancelled rfl rfl rfl fun token ht => RequestState.mem_cancelCurrent.mpr (.inr ht)
  | cancelAll =>
    obtain ⟨hids,hcurrent,htokens,hcancelled⟩ :=
      RequestState.foldl_cancel RequestState.channels r.state
    exact h.cancelled hids hcurrent htokens fun token ht => (hcancelled token).mpr (.inr ht)
  | finish handle =>
    simp only [RequestRun.step]
    split
    · next hmem => exact h.finish handle hmem
    · exact h
  | cancelToken token => exact h.cancelled rfl rfl rfl fun t ht => List.mem_cons_of_mem _ ht

theorem Sound.run (h : r.Sound) (calls : List RequestCall) : (r.run calls).Sound := by
  induction calls generalizing r with
  | nil => exact h
  | cons call calls ih => exact ih (h.step call)

/-- A request that may go on is the current one of its channel. -/
theorem Sound.current_of_live (h : r.Sound) {g : RequestHandle} (hlive : r.Live g) :
    r.state.current g.channel = some g := by
  obtain ⟨hissued,hopen,hnot⟩ := hlive
  refine h.newest g hissued hopen (Nat.le_antisymm (h.id_le g hissued) ?_)
  exact Nat.not_lt.mp fun hlt => hnot (h.older g hissued hopen hlt)

end

/-- After any calls of any threads, a channel has at most one request that is neither cancelled
nor finished. -/
theorem live_unique (calls : List RequestCall) (g g' : RequestHandle)
    (hlive : (run {} calls).Live g) (hlive' : (run {} calls).Live g')
    (hchannel : g.channel = g'.channel) : g = g' := by
  have hsound := new_sound.run calls
  have hcurrent := hsound.current_of_live hlive
  rw [hchannel,hsound.current_of_live hlive'] at hcurrent
  exact (Option.some.inj hcurrent).symm

/-- The second of two searches, beside an export. -/
theorem live_unique_search :
    (run {} [.issue .listSearch,.issue .exportList,.issue .listSearch]).Live ⟨.listSearch,2,2⟩ ∧
      (⟨.listSearch,2,2⟩ : RequestHandle) = ⟨.listSearch,2,2⟩ :=
  have hlive : (run {} [.issue .listSearch,.issue .exportList,.issue .listSearch]).Live
      ⟨.listSearch,2,2⟩ := ⟨by decide,by decide,by decide⟩
  ⟨hlive,live_unique [.issue .listSearch,.issue .exportList,.issue .listSearch] _ _ hlive hlive rfl⟩

/-- The answers that are taken are those of the newest request of a channel, until it is
finished. -/
theorem isCurrent_iff (calls : List RequestCall) (channel : RequestChannel) (requestId : Nat) :
    (run {} calls).state.isCurrent channel requestId = true ↔
      ∃ g ∈ (run {} calls).issued, g.channel = channel ∧ g.requestId = requestId ∧
        g ∉ (run {} calls).finished ∧
        ∀ g' ∈ (run {} calls).issued, g'.channel = channel → g'.requestId ≤ requestId := by
  have hsound := new_sound.run calls
  rw [RequestState.isCurrent_eq_true_iff]
  constructor
  · rintro ⟨g,hcurrent,rfl⟩
    obtain ⟨hissued,hopen,rfl,hid⟩ := hsound.current channel g hcurrent
    refine ⟨g,hissued,rfl,rfl,hopen,fun g' hg' hchannel => ?_⟩
    rw [hid,← hchannel]
    exact hsound.id_le g' hg'
  · rintro ⟨g,hissued,rfl,rfl,hopen,hnewest⟩
    refine ⟨g,hsound.newest g hissued hopen ?_,rfl⟩
    have hle := hsound.id_le g hissued
    by_cases hzero : (run {} calls).state.nextIds g.channel = 0
    · omega
    · obtain ⟨g',hissued',hchannel,hid⟩ := hsound.reached g.channel hzero
      have hge := hnewest g' hissued' hchannel
      omega

/-- The calls that concern a request. -/
def Touches (g : RequestHandle) (call : RequestCall) : Prop :=
  call = .issue g.channel ∨ call = .cancel g.channel ∨ call = .cancelAll ∨
    call = .cancelToken g.token

section
variable {r : RequestRun}

/-- A call that does not concern a request does not cancel it. -/
theorem Sound.step_spared (h : r.Sound) {g : RequestHandle} (hissued : g ∈ r.issued)
    (hnot : g.token ∉ r.state.cancelled) {call : RequestCall} (hcall : ¬ Touches g call) :
    g ∈ (r.step call).issued ∧ g.token ∉ (r.step call).state.cancelled := by
  -- the token of another channel's current request is another one
  have hother : ∀ channel, channel ≠ g.channel → g.token ∉ r.state.cancelCurrent channel := by
    intro channel hne hmem
    rcases RequestState.mem_cancelCurrent.mp hmem with ⟨g',hcurrent,htoken⟩ | hmem
    · obtain ⟨hissued',-,hchannel,-⟩ := h.current channel g' hcurrent
      rw [h.token_inj g' hissued' g hissued htoken] at hchannel
      exact hne hchannel.symm
    · exact hnot hmem
  cases call with
  | issue channel =>
    refine ⟨List.mem_cons_of_mem _ hissued,hother channel ?_⟩
    rintro rfl
    exact hcall (.inl rfl)
  | cancel channel =>
    refine ⟨hissued,hother channel ?_⟩
    rintro rfl
    exact hcall (.inr (.inl rfl))
  | cancelAll => exact absurd (.inr (.inr (.inl rfl))) hcall
  | finish handle =>
    simp only [RequestRun.step]
    split
    · refine ⟨hissued,?_⟩
      unfold RequestState.finish
      split <;> exact hnot
    · exact ⟨hissued,hnot⟩
  | cancelToken token =>
    refine ⟨hissued,fun hmem => (List.mem_cons.mp hmem).elim (fun htoken => ?_) hnot⟩
    exact hcall (.inr (.inr (.inr (by rw [htoken]))))

theorem Sound.run_spared (h : r.Sound) {g : RequestHandle} (hissued : g ∈ r.issued)
    (hnot : g.token ∉ r.state.cancelled) {calls : List RequestCall}
    (hcalls : ∀ call ∈ calls, ¬ Touches g call) : g.token ∉ (r.run calls).state.cancelled := by
  induction calls generalizing r with
  | nil => exact hnot
  | cons call calls ih =>
    obtain ⟨hissued',hnot'⟩ := h.step_spared hissued hnot (hcalls call List.mem_cons_self)
    exact ih (h.step call) hissued' hnot' fun c hc => hcalls c (List.mem_cons_of_mem _ hc)

end

/-- A request is cancelled by a call on its channel, by the end of the application, or by whoever
holds its token: never by the requests of the other channels. -/
theorem spared (before after : List RequestCall) (g : RequestHandle)
    (hissued : g ∈ (run {} before).issued) (hnot : g.token ∉ (run {} before).state.cancelled)
    (hcancelled : g.token ∈ (run {} (before ++ after)).state.cancelled) :
    ∃ call ∈ after, Touches g call := by
  by_contra hnone
  have happend : run {} (before ++ after) = (run {} before).run after := List.foldl_append
  rw [happend] at hcancelled
  have hsound := new_sound.run before
  exact hsound.run_spared hissued hnot (fun call hc ht => hnone ⟨call,hc,ht⟩) hcancelled

/-- The first of two searches, beside an export. -/
theorem spared_search :
    ∃ call ∈ [RequestCall.issue .exportList,.issue .listSearch],
      Touches ⟨.listSearch,1,0⟩ call :=
  spared [.issue .listSearch] [.issue .exportList,.issue .listSearch] ⟨.listSearch,1,0⟩
    (by decide) (by decide) (by decide)

end RequestRun

end MailDock
