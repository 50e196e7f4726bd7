/-! # Kinds of failure

The closed taxonomy of failures. Kinds form a forest with three roots: trouble on the way to a
venue, a refusal by the venue, and a fault of the caller or of this library. `parent` is the tree,
`ancestors` the chain from a kind to its root, and `isA` membership in a branch. -/

namespace Bourse

/-- A kind of failure. -/
inductive ErrorKind where
  | networkError
  | requestTimeout
  | exchangeNotAvailable
  | onMaintenance
  | ddosProtection
  | rateLimitExceeded
  | invalidNonce
  | exchangeError
  | authenticationError
  | permissionDenied
  | accountSuspended
  | badRequest
  | badSymbol
  | badResponse
  | nullResponse
  | insufficientFunds
  | invalidAddress
  | addressPending
  | invalidOrder
  | orderNotFound
  | orderNotCached
  | cancelPending
  | orderImmediatelyFillable
  | orderNotFillable
  | duplicateOrderId
  | notSupported
  | argumentsRequired
  | internalError
  deriving DecidableEq, Repr

namespace ErrorKind

/-- All kinds, each branch behind its root. -/
def all : List ErrorKind := [
    .networkError, .requestTimeout, .exchangeNotAvailable, .onMaintenance, .ddosProtection,
    .rateLimitExceeded, .invalidNonce, .exchangeError, .authenticationError, .permissionDenied,
    .accountSuspended, .badRequest, .badSymbol, .badResponse, .nullResponse, .insufficientFunds,
    .invalidAddress, .addressPending, .invalidOrder, .orderNotFound, .orderNotCached,
    .cancelPending, .orderImmediatelyFillable, .orderNotFillable, .duplicateOrderId,
    .notSupported, .argumentsRequired, .internalError]

/-- The name of a kind. -/
def name : ErrorKind → String
  | .networkError => "NetworkError"
  | .requestTimeout => "RequestTimeout"
  | .exchangeNotAvailable => "ExchangeNotAvailable"
  | .onMaintenance => "OnMaintenance"
  | .ddosProtection => "DDoSProtection"
  | .rateLimitExceeded => "RateLimitExceeded"
  | .invalidNonce => "InvalidNonce"
  | .exchangeError => "ExchangeError"
  | .authenticationError => "AuthenticationError"
  | .permissionDenied => "PermissionDenied"
  | .accountSuspended => "AccountSuspended"
  | .badRequest => "BadRequest"
  | .badSymbol => "BadSymbol"
  | .badResponse => "BadResponse"
  | .nullResponse => "NullResponse"
  | .insufficientFunds => "InsufficientFunds"
  | .invalidAddress => "InvalidAddress"
  | .addressPending => "AddressPending"
  | .invalidOrder => "InvalidOrder"
  | .orderNotFound => "OrderNotFound"
  | .orderNotCached => "OrderNotCached"
  | .cancelPending => "CancelPending"
  | .orderImmediatelyFillable => "OrderImmediatelyFillable"
  | .orderNotFillable => "OrderNotFillable"
  | .duplicateOrderId => "DuplicateOrderId"
  | .notSupported => "NotSupported"
  | .argumentsRequired => "ArgumentsRequired"
  | .internalError => "InternalError"

/-- The kind with this name. -/
def ofName? (name : String) : Option ErrorKind := all.find? fun k => k.name == name

/-- The next more general kind; the roots have none. -/
def parent : ErrorKind → Option ErrorKind
  | .networkError | .exchangeError | .internalError => none
  | .requestTimeout | .exchangeNotAvailable | .ddosProtection | .invalidNonce =>
    some .networkError
  | .onMaintenance => some .exchangeNotAvailable
  | .rateLimitExceeded => some .ddosProtection
  | .authenticationError | .badRequest | .badResponse | .insufficientFunds | .invalidAddress
  | .invalidOrder | .notSupported | .argumentsRequired => some .exchangeError
  | .permissionDenied | .accountSuspended => some .authenticationError
  | .badSymbol => some .badRequest
  | .nullResponse => some .badResponse
  | .addressPending => some .invalidAddress
  | .orderNotFound | .orderNotCached | .cancelPending | .orderImmediatelyFillable
  | .orderNotFillable | .duplicateOrderId => some .invalidOrder

/-- How many kinds lie above. -/
def depth : ErrorKind → Nat
  | .networkError | .exchangeError | .internalError => 0
  | .onMaintenance | .rateLimitExceeded | .permissionDenied | .accountSuspended | .badSymbol
  | .nullResponse | .addressPending | .orderNotFound | .orderNotCached | .cancelPending
  | .orderImmediatelyFillable | .orderNotFillable | .duplicateOrderId => 2
  | _ => 1

/-- The kind and the next `n` kinds above it. -/
def chain : (n : Nat) → ErrorKind → List ErrorKind
  | 0, k => [k]
  | n + 1, k => k :: k.parent.elim [] (chain n)

/-- The kind itself, its parent and so on to the root. -/
def ancestors (k : ErrorKind) : List ErrorKind := chain k.depth k

/-- The chain of a kind is the kind and the chain of its parent. -/
theorem ancestors_eq (k : ErrorKind) : k.ancestors = k :: k.parent.elim [] ancestors := by
  cases k <;> rfl

/-- Whether a kind is `other` or lies below it. -/
def isA (k other : ErrorKind) : Bool := k.ancestors.contains other

/-- The most general kind above. -/
def root (k : ErrorKind) : ErrorKind := k.ancestors.getLastD k

/-- Whether the same request may succeed later: trouble on the way, except a refused nonce. -/
def isRetryable (k : ErrorKind) : Bool := k.isA .networkError && k != .invalidNonce

theorem ofName?_name (k : ErrorKind) : ofName? k.name = some k := by
  cases k <;> decide

end ErrorKind

end Bourse
