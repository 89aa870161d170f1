import SmartDialer.Model.Documents

/-!
# The provider-event ledger (`app/repositories/event_repo.py`)

The unique index on `(provider_name, provider_event_id)` is the key of the collection, so a
second insertion of an event is answered `DUPLICATE`.
-/

namespace SmartDialer

open DocStore

abbrev ProviderEvents := Collection ProviderEventDocument

inductive EventRecordResult where
  | RECORDED | DUPLICATE
  deriving DecidableEq, Repr

namespace EventRepo

/-- The document `record_event` inserts. -/
def eventDocument (event : ProviderEvent) (now : Time) : ProviderEventDocument where
  providerName := event.providerName
  providerEventId := event.providerEventId
  providerCallId := event.providerCallId
  eventType := event.eventType
  providerTimestamp := some event.providerTimestamp
  receivedAt := now

def recordEvent (event : ProviderEvent) (now : Time) (events : ProviderEvents) :
    EventRecordResult × ProviderEvents :=
  match events.insertOne (eventDocument event now) with
  | some events' => (.RECORDED, events')
  | none => (.DUPLICATE, events)

def markProcessed (providerName providerEventId : String) (status : EventProcessingStatus)
    (appliedTransition : Option String) (events : ProviderEvents) : ProviderEvents :=
  (events.findOneAndUpdate (providerName, providerEventId) (fun _ => True)
    (fun d => { d with processingStatus := some status, appliedTransition := appliedTransition })
    (fun _ => rfl)).2

end EventRepo

/-- What the unique index of the ledger compares. -/
def ProviderEvent.key (event : ProviderEvent) : String × String :=
  (event.providerName, event.providerEventId)

/-- The event is in the ledger. -/
def Recorded (events : ProviderEvents) (event : ProviderEvent) : Prop :=
  events.get? event.key ≠ none

instance (events : ProviderEvents) (event : ProviderEvent) : Decidable (Recorded events event) :=
  inferInstanceAs (Decidable (_ ≠ none))

end SmartDialer
