import QueryClient.Session.Settle

/-!
# Handlers of typed results

Who subscribes to typed results brings two handlers. The manager calls two others, that are made of them: a
success is decoded before a handler is called with it, and a failure goes to the handler of failures as it is.
A call of the lower ones is one call of the upper ones.

* `HandlerPair`: two handlers; `HandlerPair.decoding`: those that are made of them.
* `HandlerPair.call_decoding`: **one call for one call.**
* `Handlers.reactions`: the handlers of a session's subscriptions are such a pair.
* `Reads`: **what a result is to somebody who wants a value of a type.**
* `reads_calls`: handlers of typed results and callers are told the same of a result.
-/

namespace QueryClient

variable {α β ρ : Type} {operation : String} {target : Target α}

/-! ## Two layers of handlers -/

/-- The two handlers of a subscription to values of a type, and what comes of calling them. -/
structure HandlerPair (β ρ : Type) where
  next : β → ρ
  error : Error → ρ

namespace HandlerPair

/-- A handler is called. -/
def call (h : HandlerPair β ρ) : HandlerCall β → ρ
  | .next value => h.next value
  | .error e => h.error e

/-- **The handlers that the manager calls** for handlers of typed results. -/
def decoding (operation : String) (target : Target α) (h : HandlerPair (QueryResult α) ρ) :
    HandlerPair (Sequenced QueryUpdate) ρ where
  next update :=
    match typedUpdate operation target update with
    | .ok result => h.next result
    | .error e => h.error e
  error := h.error

/-- What handlers do about a result. -/
def react (h : HandlerPair (Sequenced QueryUpdate) Reaction) (d : Delivery) : Reaction := h.call (untypedCall d)

/-- **One call for one call:** calling the handlers that were made of others for a result calls one of these. -/
theorem call_decoding (h : HandlerPair (QueryResult α) ρ) (d : Delivery) :
    (h.decoding operation target).call (untypedCall d) = h.call (typedCall operation target d) := by
  unfold typedCall
  cases untypedCall d with
  | next update =>
    simp only [call, decoding]
    cases typedUpdate operation target update with
    | ok result => rfl
    | error e => rfl
  | error e => rfl

end HandlerPair

/-- What the handlers of a session's subscription do when they are called. -/
def Handlers.reactions (h : Handlers) : HandlerPair β Reaction where
  next _ := { panics := Session.panicsOn h .next }
  error _ := { panics := Session.panicsOn h .error }

/-! ## What a result is -/

/-- **What a result is to somebody who wants a value of a type.** -/
inductive Reads (operation : String) (target : Target α) :
    Except Error OperationResult → Except Error α → Prop where
  /-- The value, if no errors are listed and the data can be decoded; missing data is null. -/
  | value {r : OperationResult} {value : α} (hclean : r.errors = [])
      (hdecodes : target.decoder.run (r.data.getD .null) = .ok value) : Reads operation target (.ok r) (.ok value)
  /-- A failure that keeps the data and the errors, if errors are listed. -/
  | listed {r : OperationResult} {e : Error} (herrors : r.errors ≠ []) (hcode : e.code = .operationFailed)
      (hkept : e.response? = some r) (hmessage : e.message = operation ++ " failed: " ++ Error.errorTexts r) :
      Reads operation target (.ok r) (.error e)
  /-- A failure to decode, if no errors are listed and the data cannot be decoded. -/
  | undecodable {r : OperationResult} {fault : Fault} {e : Error} (hclean : r.errors = [])
      (hfault : target.decoder.run (r.data.getD .null) = .error fault) (hcode : e.code = .decode)
      (hmessage : e.message =
        "unable to decode response data into " ++ target.typeName ++ ": " ++ fault.message) :
      Reads operation target (.ok r) (.error e)
  /-- The failure of an execution that failed. -/
  | failed (e : Error) : Reads operation target (.error e) (.error e)

theorem hasErrors_iff {r : OperationResult} : r.hasErrors ↔ r.errors ≠ [] := by
  simp [OperationResult.hasErrors]

theorem reads_decodeResponse (operation : String) (target : Target α) (r : OperationResult) :
    Reads operation target (.ok r) (decodeResponse operation target r) := by
  unfold decodeResponse
  by_cases herrors : r.hasErrors
  · rw [if_pos herrors]
    exact .listed (hasErrors_iff.1 herrors) rfl rfl rfl
  · rw [if_neg herrors]
    have hclean : r.errors = [] := by simpa [hasErrors_iff] using herrors
    unfold decodeData
    split
    · exact .value hclean ‹_›
    · exact .undecodable hclean ‹_› rfl rfl

/-- **Handlers of typed results and callers are told the same of a result:** a value with the result's number
and request, or the same failure. -/
theorem reads_calls (operation : String) (target : Target α) (d : Delivery) :
    ∃ read, Reads operation target d.outcome.value.result read ∧
      typedCall operation target d = .ofResult (read.map fun value =>
        ⟨value, d.source, d.outcome.number, d.outcome.value.request⟩) ∧
      typedQuery operation target d.outcome = read.map fun value =>
        ⟨value, .server, d.outcome.number, d.outcome.value.request⟩ := by
  cases hresult : d.outcome.value.result with
  | ok r =>
    refine ⟨_, reads_decodeResponse operation target r, ?_, ?_⟩
    · unfold typedCall untypedCall Outcome.update
      rw [hresult]
      rfl
    · unfold typedQuery Outcome.update
      rw [hresult]
      rfl
  | error e =>
    refine ⟨_, .failed e, ?_, ?_⟩
    · unfold typedCall untypedCall Outcome.update
      rw [hresult]
      rfl
    · unfold typedQuery Outcome.update
      rw [hresult]
      rfl

end QueryClient
