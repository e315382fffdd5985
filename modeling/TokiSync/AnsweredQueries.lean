import TokiSync.ServedEvents
import TokiSync.WebRuns

/-!
# From an upload to an answer

The events in an answer of the web server are followed back through the handler,
the scope of the query and the event store to the connections they were uploaded
on, while requests, connections and tasks interleave.
-/

namespace TokiSync.AnsweredQueries

open ByteCodec ByteKeys ConnectionAuth DatabaseCalls FjallQueries InterleavedSessions Runs
open ServedEvents ServerEvents SyncServer WebServer WireWindows
open FjallStore (UserFilter emptyDb)
open SyncConnection (Formats)
open TenantIsolation (TenantOp)
open WebRequests (Environment Request Response EventsAnswer)

/-- The ids that the steps hand to the event store contain no key delimiter. -/
def Delimited (history : List WebLabel) : Prop :=
  ∀ label∈history, ∀ l, Stems l label → Delimits l

/-- Nobody deletes a device of an upload or its owner in the meantime. -/
def OwnersKept (history : List WebLabel) : Prop :=
  ∀ label∈history, ∀ l, Stems l label → ∀ events, Stores l (.events (.upsert events)) →
    ∀ e∈events, ∀ other∈history, ∀ w, Stems (.environment (.write w)) other →
      ¬DeviceOwners.Disowns e.deviceId e.userId w

section

variable {newer older : List WebLabel}

theorem connections_append (newer older : List WebLabel) :
    connections (newer++older)=connections newer++connections older := List.filterMap_append

theorem Delimited.of_subset (h : Delimited newer) (hsub : older⊆newer) : Delimited older :=
  fun label hlabel => h label (hsub hlabel)

theorem OwnersKept.of_subset (h : OwnersKept newer) (hsub : older⊆newer) : OwnersKept older :=
  fun label hlabel l hl events hstores e he other hother =>
    h label (hsub hlabel) l hl events hstores e he other (hsub hother)

/-- What happens on a connection is in its own steps. -/
theorem own_sessions (i : ℕ) (labels : List ServerLabel) :
    own i (labels.filterMap sessionLabel)=own i labels := by
  induction labels with
  | nil => rfl
  | cons label labels ih =>
    cases label with
    | environment e => exact ih
    | session j e =>
      show own i (.session j e::labels.filterMap sessionLabel)=_
      rw [own,own,ih]

/-- An upload is a step of a connection. -/
theorem uploaded_sessions {F : Formats} {labels : List ServerLabel} {e : ServerEvent}
    (h : Uploaded F labels e) : Uploaded F (labels.filterMap sessionLabel) e := by
  obtain ⟨newer,older,i,upload,reply,rfl,haccepted,he⟩ := h
  refine ⟨newer.filterMap sessionLabel,older.filterMap sessionLabel,i,upload,reply,?_,?_,he⟩
  · rw [List.filterMap_append]
    rfl
  · rw [InterleavedSessions.inner,own_sessions]
    exact haccepted

/-- An upload stays one when more happens. -/
theorem uploaded_append {F : Formats} {newer older : List ServerLabel} {e : ServerEvent}
    (h : Uploaded F older e) : Uploaded F (newer++older) e := by
  obtain ⟨later,earlier,i,upload,reply,rfl,haccepted,he⟩ := h
  exact ⟨newer++later,earlier,i,upload,reply,(List.append_assoc _ _ _).symm,haccepted,he⟩

/-- An event of a session is a step in the history. -/
theorem split_of_mem_own {ι κ A ε : Type} {ρ : κ → Type} [DecidableEq ι] {i : ι} {e : Event ρ A}
    {history : List (Label ι ρ A ε)} (h : e∈own i history) :
    ∃ later earlier, history=later++.session i e::earlier := by
  refine List.append_of_mem ?_
  induction history with
  | nil => cases h
  | cons label past ih =>
    cases label with
    | environment x => exact List.mem_cons_of_mem _ (ih h)
    | session j x =>
      rw [own] at h
      split at h
      · rename_i hj
        subst hj
        rcases List.mem_cons.mp h with rfl | h
        · exact List.mem_cons_self
        · exact List.mem_cons_of_mem _ (ih h)
      · exact List.mem_cons_of_mem _ (ih h)

end

section

variable {E : Environment} {F : Formats} {eventCodec : Codec PersistedEvent}
variable {windowCodec : Codec WireWindow} {backend : OidcAccounts.Backend} {L : Libraries}
variable {dedupRetentionSecs : Int64} {init host : WebHost} {newer older history : List WebLabel}
variable {i : ℕ}

/-- What the event store returns in a run of the whole server was uploaded on the
connections in the run by users of the filter. -/
theorem uploads_of_read (hconnections : ∀ i, init.shared.sync.phases i=.unopened)
    (hempty : init.shared.server.events=emptyDb)
    (run : Run (WebStep E F eventCodec windowCodec backend L dedupRetentionSecs) init history host)
    (hdelimited : Delimited history) (hkept : OwnersKept history) {filter : UserFilter}
    (hfilter : UserFilter.Delimitable filter) {sinceMs untilMs : Int64} {limit : ℕ}
    {e : ServerEvent}
    (he : e∈FjallStore.queryEvents eventCodec host.shared.server.events sinceMs untilMs filter
      limit) :
    ∃ uploaded, Uploaded F (connections history) uploaded ∧
      filter.admits uploaded.userId=true ∧ e={uploaded with session := e.session} := by
  obtain ⟨labels,hrun,hstems,hseen⟩ := projects.run run
  have hdelimits : ∀ label∈labels, Delimits label := fun label hlabel => by
    obtain ⟨whole,hwhole,hstem⟩ := stem_of_mem hstems hlabel
    exact hdelimited whole hwhole label hstem
  have hdevices : DevicesKept labels := fun label hlabel events hstores e he w hw => by
    obtain ⟨whole,hwhole,hstem⟩ := stem_of_mem hstems hlabel
    obtain ⟨other,hother,hwrite⟩ := stem_of_mem hstems hw
    exact hkept whole hwhole label hstem events hstores e he other hother w hwrite
  obtain ⟨uploaded,huploaded,hadmits,hsame⟩ :=
    uploads_of_query hconnections hempty hrun hdelimits hdevices hfilter he
  refine ⟨uploaded,?_,hadmits,hsame⟩
  show Uploaded F (history.filterMap connectionLabel) uploaded
  rw [←hseen]
  exact uploaded_sessions huploaded

/-- A query of the event store that succeeds returns what is there. -/
theorem events_of_reply {s t : App} {sinceMs untilMs : ℤ} {filter : UserFilter} {limit : ℕ}
    {events : List ServerEvent} (h : Replies E F eventCodec windowCodec backend L
      (.queryEvents sinceMs untilMs filter limit) s (.ok events) t) :
    events=FjallStore.queryEvents eventCodec s.server.events (Int64.ofInt sinceMs)
      (Int64.ofInt untilMs) filter limit := by
  rcases h.2 with h | ⟨e,h⟩
  · exact Except.ok.inj h
  · cases h

/-- What a request answers with was uploaded by users whose data it may ask for. -/
theorem uploads_of_answer (hconnections : ∀ i, init.shared.sync.phases i=.unopened)
    (hunopened : ∀ i, init.phases i=.unopened) (hempty : init.shared.server.events=emptyDb)
    {status : ℕ} {answer : EventsAnswer} {sent : Unit}
    (run : Run (WebStep E F eventCodec windowCodec backend L dedupRetentionSecs) init
      (newer++.session i (.call (.respond ⟨status,.events answer⟩) sent)::older) host)
    (hdelimited : Delimited older) (hkept : OwnersKept older) :
    ∃ userId filter, WebEvidence.Authenticated (inner i older) userId ∧
      WebEvidence.InScope E (inner i older) userId filter ∧
      (UserFilter.Delimitable filter → ∀ e∈answer.events, ∃ uploaded,
        Uploaded F (connections older) uploaded ∧ filter.admits uploaded.userId=true ∧
          e={uploaded with session := e.session}) := by
  have hanswerable : WebEvidence.Answerable E (inner i older) ⟨status,.events answer⟩ :=
    WebRuns.authorized_of_run hunopened run
  obtain ⟨userId,filter,events,hauth,hscope,hcall,hevents⟩ := hanswerable.1
  refine ⟨userId,filter,hauth,hscope,fun hfilter e he => ?_⟩
  rw [hevents] at he
  obtain ⟨later,earlier,rfl⟩ := split_of_mem_own (List.mem_of_mem_filter hcall)
  obtain ⟨_,hrun,-⟩ := run.split
  cases hrun with
  | next _ hrun _ =>
    obtain ⟨_,hrun,-⟩ := hrun.split
    cases hrun with
    | next _ hrun taken =>
      cases taken with
      | call _ effect =>
        rw [@events_of_reply E F eventCodec windowCodec backend L _ _ _ _ _ _ _ effect] at he
        have hsub := List.subset_append_of_subset_right later
          (List.subset_cons_self (.session i (.call (.queryEvents answer.sinceMs answer.untilMs
            filter (TokiQuery.maxQueryEvents+1)) (.ok events))) earlier)
        obtain ⟨uploaded,huploaded,hrest⟩ := uploads_of_read hconnections hempty hrun
          (hdelimited.of_subset hsub) (hkept.of_subset hsub) hfilter (List.mem_of_mem_take he)
        refine ⟨uploaded,?_,hrest⟩
        rw [connections_append]
        exact uploaded_append huploaded

/-- Every event in an answer was uploaded, on a connection that its user had
opened, by a user whose data the request may ask for: the user whose valid token
the request bears, a member of a team that this user may ask for, or anyone if
the server or the role of the user allows that. -/
theorem answers_show_uploads (hconnections : ∀ i, init.shared.sync.phases i=.unopened)
    (hunopened : ∀ i, init.phases i=.unopened) (hempty : init.shared.server.events=emptyDb)
    {status : ℕ} {answer : EventsAnswer} {sent : Unit}
    (run : Run (WebStep E F eventCodec windowCodec backend L dedupRetentionSecs) init
      (newer++.session i (.call (.respond ⟨status,.events answer⟩) sent)::older) host)
    (hdelimited : Delimited older) (hkept : OwnersKept older) :
    ∃ userId filter, WebEvidence.Authenticated (inner i older) userId ∧
      WebEvidence.InScope E (inner i older) userId filter ∧
      (UserFilter.Delimitable filter → ∀ e∈answer.events, ∃ uploaded,
        Uploaded F (connections older) uploaded ∧ filter.admits uploaded.userId=true ∧
          e={uploaded with session := e.session}) :=
  uploads_of_answer hconnections hunopened hempty run hdelimited hkept

end

/-- The steps of the sample run before the answer. -/
def sampleAsked : List WebLabel := sampleAsking.map (.session 0)++sampleBeside.map .environment

/-- What an event of a request does outside the connections. -/
def eventOutside : Event WebRequests.Answer Request → Option Outside
  | .call op reply => outside op reply
  | _ => none

/-- All that happens behind the connections in the sample run are their steps. -/
theorem sampleLabels_of_stems {label : WebLabel} (hlabel : label∈sampleAsked) {l : ServerLabel}
    (h : Stems l label) : l∈sampleLabels := by
  rcases List.mem_append.mp hlabel with hlabel | hlabel
  · obtain ⟨e,he,rfl⟩ := List.mem_map.mp hlabel
    have houtside : ∀ e∈sampleAsking, eventOutside e=none := by
      simp [sampleAsking,eventOutside,outside]
    cases h with
    | @call _ op reply o h =>
      have hnone : outside op reply=none := houtside _ he
      rw [h] at hnone
      cases hnone
  · obtain ⟨e,he,rfl⟩ := List.mem_map.mp hlabel
    cases h with
    | beside e =>
      obtain ⟨event,hevent,rfl⟩ := List.mem_map.mp he
      exact List.mem_map.mpr ⟨event,hevent,rfl⟩

theorem sampleAsked_kept : Delimited sampleAsked ∧ OwnersKept sampleAsked := by
  constructor
  · intro label hlabel l hl
    exact sampleLabels_kept.1 l (sampleLabels_of_stems hlabel hl)
  · intro label hlabel l hl events hstores e he other hother w hw
    obtain ⟨event,-,hevent⟩ := List.mem_map.mp (sampleLabels_of_stems hother hw)
    cases hevent

/-- What has happened to the request of the sample run before its answer. -/
theorem inner_sampleAsked : inner 0 sampleAsked=sampleAsking.dropLast := rfl

/-- The request of the sample run is made by one user and asks for the data of
that user. -/
theorem sampleAsked_filter {userId : String} {filter : UserFilter}
    (hauth : WebEvidence.Authenticated (inner 0 sampleAsked) userId)
    (hscope : WebEvidence.InScope sampleEnvironment (inner 0 sampleAsked) userId filter) :
    filter=.single "u1" := by
  rw [inner_sampleAsked] at hauth hscope
  have huser : userId="u1" := by
    obtain ⟨request,token,claims,-,-,hcall,rfl⟩ := hauth.verified
    have hverified : token="token" ∧ claims=⟨"u1","j1","access",3600,0,none,none⟩ := by
      simpa [sampleAsking,List.dropLast] using hcall
    rw [hverified.2]
  subst huser
  cases filter with
  | single id =>
    have hid : id="u1" := hscope
    rw [hid]
  | multiple ids =>
    obtain ⟨teamId,members,hread,-⟩ := hscope
    simp [sampleAsking] at hread
  | all =>
    rcases hscope with ⟨-,hadmin⟩ | ⟨reply,hread,hreply⟩
    · simp [sampleAsking] at hadmin
    · have hnone : reply=.ok none := by
        simpa [sampleAsking,WebRequests.Setting.key] using hread
      rcases hreply with hstored | ⟨-,hconfig⟩
      · cases hnone.symm.trans hstored
      · simp [sampleEnvironment] at hconfig

/-- The answer of the sample run has an event. -/
theorem exists_mem_sampleAnswer : ∃ e, e∈sampleAnswer.events := by
  have hlength : sampleAnswer.events.length=1 := by
    decide +kernel
  exact List.exists_mem_of_length_pos (hlength ▸ Nat.one_pos)

/-- The user of the sample run has an id without zero bytes. -/
theorem sample_delimitable : UserFilter.Delimitable (.single "u1") := by
  have hu : NulFree (utf8 "u1") := by decide
  exact hu

/-- The answer of the sample run shows an event that the user has uploaded. -/
theorem answers_show_uploads_sample : ∃ e∈sampleAnswer.events, ∃ uploaded : ServerEvent,
    Uploaded sampleFormats (connections sampleAsked) uploaded ∧ uploaded.userId="u1" ∧
      e={uploaded with session := e.session} := by
  obtain ⟨host,run⟩ := sampleAnswered
  obtain ⟨userId,filter,hauth,hscope,hshows⟩ := @answers_show_uploads _ _ _ _ _ _ _ _ _ []
    sampleAsked 0 (fun _ => rfl) (fun _ => rfl) rfl _ _ _ run sampleAsked_kept.1 sampleAsked_kept.2
  obtain rfl := sampleAsked_filter hauth hscope
  obtain ⟨e,he⟩ := exists_mem_sampleAnswer
  obtain ⟨uploaded,huploaded,hadmits,hsame⟩ := hshows sample_delimitable e he
  exact ⟨e,he,uploaded,huploaded,of_decide_eq_true hadmits,hsame⟩

end TokiSync.AnsweredQueries
