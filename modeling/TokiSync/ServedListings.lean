import TokiSync.AnsweredQueries
import TokiSync.RawListings

/-!
# Listings that the server shows

An answer to a request for events without steps is shown as a listing. Each of its
rows is that of an event which was uploaded on a connection in the run.
-/

namespace TokiSync.ServedListings

open AnsweredQueries ByteCodec CalendarBuckets FjallQueries InterleavedSessions RawListings Runs
open ServedEvents ServerEvents SyncServer UsageAggregation WebServer WireWindows
open FjallStore (UserFilter emptyDb)
open SyncConnection (Formats)
open WebRequests (Environment Request EventsAnswer)

/-- What is needed to print an answer: the clocks of time zones and the prices. -/
structure Printing (R : Type) where
  /-- Text of a second in a time zone, or in UTC. -/
  printLocal : Option Tz → ℤ → String
  pricing : PricingTable R

section

variable {R : Type} [Zero R] [Add R] [Mul R] [NatCast R]

/-- The listing that an answer asks for. -/
def listingQuery (printing : Printing R) (answer : EventsAnswer) : RawQuery R :=
  ⟨printing.printLocal answer.tz,printing.pricing,answer.parsed.provider,answer.includeCost⟩

/-- The listing of an answer. -/
def listing (printing : Printing R) (answer : EventsAnswer) : RawResponse R :=
  (listingQuery printing answer).rawEvents answer.events answer.truncated

variable {E : Environment} {F : Formats} {eventCodec : Codec PersistedEvent}
variable {windowCodec : Codec WireWindow} {backend : OidcAccounts.Backend} {L : Libraries}
variable {dedupRetentionSecs : Int64} {init host : WebHost} {newer older : List WebLabel}
variable {i : ℕ}

/-- Every row of the listing of an answer is that of an event which was uploaded,
on a connection that its user had opened, by a user whose data the request may ask
for. It stands under the provider of the event and shows its own counts and their
price. -/
theorem listings_show_uploads (hconnections : ∀ i, init.shared.sync.phases i=.unopened)
    (hunopened : ∀ i, init.phases i=.unopened) (hempty : init.shared.server.events=emptyDb)
    {status : ℕ} {answer : EventsAnswer} {sent : Unit}
    (run : Run (WebStep E F eventCodec windowCodec backend L dedupRetentionSecs) init
      (newer++.session i (.call (.respond ⟨status,.events answer⟩) sent)::older) host)
    (hdelimited : Delimited older) (hkept : OwnersKept older) (printing : Printing R) :
    ∃ userId filter, WebEvidence.Authenticated (inner i older) userId ∧
      WebEvidence.InScope E (inner i older) userId filter ∧
      (UserFilter.Delimitable filter →
        ∀ provider rows, (provider,rows)∈(listing printing answer).providers → ∀ row∈rows,
          ∃ uploaded, Uploaded F (connections older) uploaded ∧
            filter.admits uploaded.userId=true ∧ providerKey uploaded=provider ∧
              row=(listingQuery printing answer).ownRow
                {uploaded with session := row.session}) := by
  obtain ⟨userId,filter,hauth,hscope,hshows⟩ :=
    uploads_of_answer hconnections hunopened hempty run hdelimited hkept
  refine ⟨userId,filter,hauth,hscope,fun hfilter provider rows hrows row hrow => ?_⟩
  obtain ⟨e,he,-,rfl,rfl⟩ := RawQuery.event_of_row hrows hrow
  obtain ⟨uploaded,huploaded,hadmits,hsame⟩ := hshows hfilter e he
  refine ⟨uploaded,huploaded,hadmits,?_,?_⟩
  · rw [hsame]
    rfl
  · exact congrArg _ hsame

end

/-- A way to print the answer of the sample run: no model has a price. -/
def samplePrinting : Printing ℚ := ⟨fun _ _ => "1970-01-01T00:00:00",⟨fun _ => none⟩⟩

/-- The answer of the sample run shows a row of an event that the user has
uploaded. -/
theorem listings_show_uploads_sample : ∃ provider rows row,
    (provider,rows)∈(listing samplePrinting sampleAnswer).providers ∧ row∈rows ∧
      ∃ uploaded : ServerEvent, Uploaded sampleFormats (connections sampleAsked) uploaded ∧
        uploaded.userId="u1" ∧ providerKey uploaded=provider ∧
          row=(listingQuery samplePrinting sampleAnswer).ownRow
            {uploaded with session := row.session} := by
  obtain ⟨host,run⟩ := sampleAnswered
  obtain ⟨userId,filter,hauth,hscope,hshows⟩ := @listings_show_uploads ℚ _ _ _ _ _ _ _ _ _ _ _ _ _
    [] sampleAsked 0 (fun _ => rfl) (fun _ => rfl) rfl _ _ _ run sampleAsked_kept.1
    sampleAsked_kept.2 samplePrinting
  obtain rfl := sampleAsked_filter hauth hscope
  obtain ⟨e,he⟩ := exists_mem_sampleAnswer
  have hadmits : (listingQuery samplePrinting sampleAnswer).admits e=true := rfl
  obtain ⟨rows,hrows,hrow⟩ :=
    @RawQuery.row_of_event ℚ _ _ _ _ _ e _ sampleAnswer.truncated he hadmits
  obtain ⟨uploaded,huploaded,hfilter,hprovider,hshown⟩ :=
    hshows sample_delimitable _ rows hrows _ hrow
  exact ⟨_,rows,_,hrows,hrow,uploaded,huploaded,of_decide_eq_true hfilter,hprovider,hshown⟩

end TokiSync.ServedListings
