/-! Diagnostics: warnings about recoverable faults of a script, and the error that ends it. -/

namespace PrimScript

inductive DiagnosticKind
  | unknownIdentifier : DiagnosticKind
  | unknownFunction : DiagnosticKind
  | arityMismatch : DiagnosticKind
  | typeMismatch : DiagnosticKind
  | indexOutOfRange : DiagnosticKind
  | loopCapExceeded : DiagnosticKind
  | queueOverflow : DiagnosticKind
  | listenerLimit : DiagnosticKind
  | asyncFailure : DiagnosticKind
  | fatal : DiagnosticKind
  deriving DecidableEq, Repr

namespace DiagnosticKind

def name : DiagnosticKind → String
  | .unknownIdentifier => "unknown_identifier"
  | .unknownFunction => "unknown_function"
  | .arityMismatch => "arity_mismatch"
  | .typeMismatch => "type_mismatch"
  | .indexOutOfRange => "index_out_of_range"
  | .loopCapExceeded => "loop_cap_exceeded"
  | .queueOverflow => "queue_overflow"
  | .listenerLimit => "listener_limit"
  | .asyncFailure => "async_failure"
  | .fatal => "fatal"

def severity : DiagnosticKind → String
  | .fatal => "Error"
  | _ => "Warning"

end DiagnosticKind

structure Diagnostic where
  kind : DiagnosticKind
  message : String
  deriving DecidableEq, Repr

end PrimScript
