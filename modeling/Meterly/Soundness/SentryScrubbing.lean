import Meterly.Model.Logging
import Meterly.Text.Document

/-! # Which events the hook of the error tracker scrubs

`before_send` gets an event as the SDK has serialised it: nested dictionaries and lists of scalars. The hook
goes into the request of the event, and scrubs two dictionaries there, its headers and its data. What stands
under a stripped key anywhere else, as in the local variables of a frame, is sent as it is.
-/

namespace Meterly

/-! ## The hook -/

/-- A value of an event. -/
abbrev SentryValue := Document String Json.Value

/-- `_STRIPPED_KEYS` -/
def strippedKeys : List String := ["authorization", "api_key", "customer_id", "secret", "secret_hash"]

/-- `key.lower() in _STRIPPED_KEYS` -/
def IsStripped (key : String) : Prop := lower key ∈ strippedKeys

instance : DecidablePred IsStripped := fun key => inferInstanceAs (Decidable (lower key ∈ strippedKeys))

/-- The loop over the keys of `headers` or of `data`, where that is a dictionary. -/
def stripKeys (value : SentryValue) : SentryValue := value.maskKeys IsStripped (.text redacted)

/-- The `if` block on `request_context`, where that is a dictionary. -/
def stripRequest (requestContext : SentryValue) : SentryValue :=
  (requestContext.update "headers" stripKeys).update "data" stripKeys

/-- `_strip_sensitive_context` -/
def stripSensitiveContext (event : SentryValue) : SentryValue := event.update "request" stripRequest

/-! ## What it scrubs -/

open Document

/-- The places that the hook looks at. -/
def scrubbedPlaces : List (List (Step String)) :=
  [[.key "request", .key "headers"], [.key "request", .key "data"]]

theorem stripKeys_scrubsAt : ScrubsAt IsStripped (.text redacted) stripKeys [[]] := scrubsAt_maskKeys

/-- The hook scrubs the headers and the data of the request, and changes nothing else. -/
theorem stripSensitiveContext_scrubsAt :
    ScrubsAt IsStripped (.text redacted) stripSensitiveContext scrubbedPlaces :=
  ((stripKeys_scrubsAt.update (by decide +kernel)).comp (stripKeys_scrubsAt.update (by decide +kernel))).update
    (by decide +kernel)

theorem stripKeys_stripKeys : stripKeys ∘ stripKeys = stripKeys := funext maskKeys_maskKeys

/-- The hook leaves an event alone that it has been applied to. -/
theorem stripSensitiveContext_idempotent (event : SentryValue) :
    stripSensitiveContext (stripSensitiveContext event) = stripSensitiveContext event := by
  have request : stripRequest ∘ stripRequest = stripRequest := by
    funext requestContext
    have apart : "data" ≠ "headers" := by decide
    simp only [Function.comp_apply, stripRequest]
    rw [update_comm apart, update_update, update_update, stripKeys_stripKeys]
  rw [stripSensitiveContext, stripSensitiveContext, update_update, request]

/-- The whole event is scrubbed: no stripped key is left with a value, nothing else has changed, and the hook
would change nothing more. -/
structure ScrubsWhole (event : SentryValue) : Prop where
  clean : (stripSensitiveContext event).Clean IsStripped (.text redacted)
  agrees : AgreesOutside IsStripped event (stripSensitiveContext event)
  idempotent : stripSensitiveContext (stripSensitiveContext event) = stripSensitiveContext event

/-- The hook scrubs an event just when it does what scrubbing at every depth does. -/
theorem scrubsWhole_iff_eq_scrub (event : SentryValue) :
    ScrubsWhole event ↔ stripSensitiveContext event = event.scrub IsStripped (.text redacted) := by
  rw [eq_scrub_iff]
  exact ⟨fun whole => ⟨whole.clean, whole.agrees⟩,
    fun ⟨clean, agrees⟩ => ⟨clean, agrees, stripSensitiveContext_idempotent event⟩⟩

/-- The hook scrubs an event just when every sensitive value in it stands directly in the headers or in the
data of its request. -/
theorem sentry_event_scrubbed_iff (event : SentryValue) : ScrubsWhole event ↔
    ∀ path key value, Avoids IsStripped path → IsStripped key → event.get? (path ++ [.key key]) = some value →
      value ≠ .scalar (.text redacted) → path ∈ scrubbedPlaces := by
  rw [← stripSensitiveContext_scrubsAt.clean_iff]
  exact ⟨ScrubsWhole.clean, fun clean =>
    ⟨clean, stripSensitiveContext_scrubsAt.keeps event, stripSensitiveContext_idempotent event⟩⟩

/-- An exception whose frame has a customer id among its local variables. -/
def frameEvent : SentryValue :=
  .dict {"exception"} fun _ => .dict {"values"} fun _ => .list 1 fun _ =>
    .dict {"stacktrace"} fun _ => .dict {"frames"} fun _ => .list 1 fun _ =>
      .dict {"vars"} fun _ => .dict {"customer_id"} fun _ => .scalar (.text "cust_1")

/-- A local variable is sent with its value. -/
theorem sentry_event_keeps_frame_variable : stripSensitiveContext frameEvent = frameEvent ∧ ¬ ScrubsWhole frameEvent := by
  have same : stripSensitiveContext frameEvent = frameEvent := by
    refine congrArg (dict {"exception"}) (funext fun entry => if_neg ?_)
    rw [Finset.mem_singleton.mp entry.property]
    decide
  refine ⟨same, ?_⟩
  rw [scrubsWhole_iff_eq_scrub, same]
  intro scrubbed
  have sent : frameEvent.get? [.key "exception", .key "values", .item 0, .key "stacktrace", .key "frames", .item 0,
      .key "vars", .key "customer_id"] = some (.scalar (.text "cust_1")) := rfl
  have clean := clean_scrub IsStripped (.text redacted) frameEvent [.key "exception", .key "values", .item 0,
    .key "stacktrace", .key "frames", .item 0, .key "vars"] "customer_id" _ (by decide +kernel) (scrubbed ▸ sent)
  exact absurd clean (by simp [redacted])

end Meterly
