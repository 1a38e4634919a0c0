import GpuCluster.Foundation.Json
import GpuCluster.Foundation.Text

/-! # HTTP requests and tables of routes

A service answers a request by the handler that its table of routes names for
the path and the method. The matching of paths, the decoding of path segments
and JSON bodies, and the way of a URL to its server are left to a web stack.
-/

namespace GpuCluster.Foundation

universe u v

/-- Header names are in lower case; a header may occur several times. -/
structure HttpRequest where
  method : String
  pathAndQuery : String
  headers : List (String × String)
  body : List UInt8
  deriving DecidableEq

namespace HttpRequest

def path (req : HttpRequest) : String := .ofList (req.pathAndQuery.toList.takeWhile (· ≠ '?'))

/-- The first value of a header. -/
def header (req : HttpRequest) (name : String) : Option String := req.headers.lookup name

end HttpRequest

/-- A status code has three digits. -/
structure HttpStatus where
  code : ℕ
  valid : 100 ≤ code ∧ code < 1000
  deriving DecidableEq

namespace HttpStatus

def ok : HttpStatus := ⟨200, by decide⟩

def internalServerError : HttpStatus := ⟨500, by decide⟩

def notImplemented : HttpStatus := ⟨501, by decide⟩

def badGateway : HttpStatus := ⟨502, by decide⟩

def serviceUnavailable : HttpStatus := ⟨503, by decide⟩

def isSuccess (status : HttpStatus) : Bool := 200 ≤ status.code && status.code < 300

def isServerError (status : HttpStatus) : Bool := 500 ≤ status.code && status.code < 600

/-- `StatusCode::from_u16`. -/
def fromCode (code : ℕ) : Option HttpStatus :=
  if valid : 100 ≤ code ∧ code < 1000 then some ⟨code, valid⟩ else none

@[simp] theorem fromCode_code (status : HttpStatus) : fromCode status.code = some status :=
  dif_pos status.valid

end HttpStatus

/-- `HeaderValue::to_str`. -/
def headerText (value : String) : Option String :=
  if value.toList.all fun c => c = '\t' || 0x20 ≤ c.toNat && c.toNat < 0x7f then some value
  else none

theorem eq_of_headerText {value text : String} (htext : headerText value = some text) :
    value = text := by
  unfold headerText at htext
  split at htext
  next => exact Option.some.inj htext
  next => cases htext

/-- `HeaderMap::insert`, which drops the values a header had. -/
def insertHeader (name value : String) (headers : List (String × String)) :
    List (String × String) :=
  (name, value) :: headers.filter fun header => header.1 ≠ name

/-- The web libraries. `route` picks a template for a path, with the segments
its parameters capture; `deliver` tells the path and query that a request to a
URL arrives with, or why it does not arrive. -/
structure WebStack where
  route : List String → String → Option (String × List String)
  decodeSegment : String → Option String
  jsonBody : HttpRequest → Option Json
  parseJson : String → Option Json
  writeJson : Json → List UInt8
  deliver : String → Except String String

/-! ## Routes -/

inductive MethodFilter
  | any
  | only (method : String)
  deriving DecidableEq

/-- A handler for `GET` answers `HEAD` too. -/
def MethodFilter.accepts : MethodFilter → String → Bool
  | .any, _ => true
  | .only name, method => method = name || name = "GET" && method = "HEAD"

structure Route (η : Type u) where
  template : String
  filter : MethodFilter
  handler : η
  deriving DecidableEq

def Route.map {η : Type u} {θ : Type v} (f : η → θ) (route : Route η) : Route θ :=
  ⟨route.template, route.filter, f route.handler⟩

/-- The handler of a request and the segments captured for it. A path without
template or a method without handler has none. -/
def handlerFor {η : Type u} (stack : WebStack) (routes : List (Route η)) (req : HttpRequest) :
    Option (η × List String) :=
  (stack.route (routes.map Route.template) req.path).bind fun matched =>
    (routes.find? fun route => route.template = matched.1 ∧ route.filter.accepts req.method).map
      fun route => (route.handler, matched.2)

/-- A handler runs on the methods its route accepts. -/
theorem handlerFor_accepts {η : Type u} {stack : WebStack} {routes : List (Route η)}
    {req : HttpRequest} {handler : η} {segments : List String}
    (hhandler : handlerFor stack routes req = some (handler, segments)) :
    ∃ route ∈ routes, route.handler = handler ∧ route.filter.accepts req.method := by
  obtain ⟨matched, -, hfound⟩ := Option.bind_eq_some_iff.mp hhandler
  obtain ⟨route, hfind, hroute⟩ := Option.map_eq_some_iff.mp hfound
  have hfits := List.find?_some hfind
  simp only [decide_eq_true_eq] at hfits
  exact ⟨route, List.mem_of_find?_eq_some hfind, congrArg Prod.fst hroute, hfits.2⟩

/-- In a table without repetitions, a handler runs exactly on its own template
and methods. -/
theorem handlerFor_eq_some {η : Type u} (stack : WebStack) {routes : List (Route η)}
    (htemplates : (routes.map Route.template).Nodup) (hhandlers : (routes.map Route.handler).Nodup)
    {route : Route η} (hroute : route ∈ routes) (req : HttpRequest) (segments : List String) :
    handlerFor stack routes req = some (route.handler, segments) ↔
      stack.route (routes.map Route.template) req.path = some (route.template, segments) ∧
        route.filter.accepts req.method := by
  simp only [handlerFor, Option.bind_eq_some_iff, Option.map_eq_some_iff, Prod.mk.injEq]
  constructor
  · intro ⟨matched, hmatched, other, hfind, hhandler, hsegments⟩
    have hother := List.mem_of_find?_eq_some hfind
    have hfits := List.find?_some hfind
    simp only [decide_eq_true_eq] at hfits
    have hsame : other = route := List.inj_on_of_nodup_map hhandlers hother hroute hhandler
    subst hsame
    refine ⟨?_, hfits.2⟩
    rw [hmatched, hfits.1, ← hsegments]
  · intro ⟨hmatched, haccepts⟩
    refine ⟨_, hmatched, route, ?_, rfl, rfl⟩
    cases hfind : routes.find? fun other =>
        other.template = route.template ∧ other.filter.accepts req.method with
    | none =>
        have hnone := List.find?_eq_none.mp hfind route hroute
        simp [haccepts] at hnone
    | some other =>
        have hother := List.mem_of_find?_eq_some hfind
        have hfits := List.find?_some hfind
        simp only [decide_eq_true_eq] at hfits
        rw [List.inj_on_of_nodup_map htemplates hother hroute hfits.1]

end GpuCluster.Foundation
