import GpuCluster.Foundation.Json

/-! # Errors of the management API -/

namespace GpuCluster.Mgmt

open Foundation

inductive ApiError
  | unauthorized
  | notFound
  | badRequest (message : String)
  | conflict (message : String)
  | internal (message : String)
  deriving DecidableEq

/-- HTTP status and body. The cause of an internal error is not disclosed. -/
def ApiError.response : ApiError → Nat × Json
  | .unauthorized => (401, .object [("error", .string "unauthorized")])
  | .notFound => (404, .object [("error", .string "not found")])
  | .badRequest message => (400, .object [("error", .string message)])
  | .conflict message => (409, .object [("error", .string message)])
  | .internal _ => (500, .object [("error", .string "internal error")])

end GpuCluster.Mgmt
