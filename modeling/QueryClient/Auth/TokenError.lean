/-!
# Failures of an auth provider

* `TokenError`: a kind and a text.
* `TokenError.noSignedInUser`, `TokenError.appDeleted`, `TokenError.failed`: with their usual texts.
-/

namespace QueryClient

/-- The kinds of failure of an auth provider. -/
inductive TokenErrorKind where
  /-- Nobody is signed in; there is no token then. -/
  | noSignedInUser
  /-- The application was deleted. -/
  | appDeleted
  | failed
  deriving DecidableEq, Repr, Inhabited

namespace TokenErrorKind

/-- The kind in one word. -/
def name : TokenErrorKind → String
  | noSignedInUser => "NoSignedInUser"
  | appDeleted => "AppDeleted"
  | failed => "Failed"

end TokenErrorKind

/-- Why an auth provider failed. -/
structure TokenError where
  kind : TokenErrorKind
  message : String
  deriving DecidableEq, Repr, Inhabited

namespace TokenError

/-- Nobody is signed in. -/
def noSignedInUser : TokenError := ⟨.noSignedInUser, "no user is signed in"⟩

/-- The application was deleted. -/
def appDeleted : TokenError := ⟨.appDeleted, "the Firebase app was deleted"⟩

/-- Any other failure. -/
def failed (message : String) : TokenError := ⟨.failed, message⟩

end TokenError

end QueryClient
