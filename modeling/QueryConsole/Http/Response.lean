import QueryConsole.Json.Printer
import QueryConsole.Failure

namespace QueryConsole.Http

inductive Rejection : Type
  | undecodablePath : Rejection
  | repeatedParameter : Rejection
  | notJson : Rejection
  | tooLong : Rejection
  | malformedBody : Rejection
  | misshapenBody : Rejection
  deriving DecidableEq

def Rejection.status : Rejection → Nat
  | .undecodablePath => 400
  | .repeatedParameter => 400
  | .notJson => 415
  | .tooLong => 413
  | .malformedBody => 400
  | .misshapenBody => 422

def Rejection.message : Rejection → String
  | .undecodablePath => "the path holds bytes that are not UTF-8"
  | .repeatedParameter => "a query parameter is given more than once"
  | .notJson => "the body has to be sent as JSON"
  | .tooLong => "the body is too long"
  | .malformedBody => "the body is not JSON"
  | .misshapenBody => "the body does not have the members of this request"

inductive Content : Type
  | empty : Content
  | json : Json → Content
  | failure : Failure → Content
  | notice : Rejection → Content

structure Response where
  status : Nat
  content : Content
  bodiless : Bool := false

namespace Response

def ok (value : Json) : Response := { status := 200, content := .json value }

def ofFailure (f : Failure) : Response := { status := f.status, content := .failure f }

def ofRejection (r : Rejection) : Response := { status := r.status, content := .notice r }

def notFound : Response := { status := 404, content := .empty }

def methodNotAllowed : Response := { status := 405, content := .empty }

def withoutBody (r : Response) : Response := { r with bodiless := true }

def contentType (r : Response) : Option String :=
  match r.content with
  | .empty => none
  | .json _ | .failure _ => some "application/json"
  | .notice _ => some "text/plain; charset=utf-8"

def body (r : Response) : String :=
  if r.bodiless then ""
  else
    match r.content with
    | .empty => ""
    | .json value => value.render
    | .failure f => (Json.object [("error", .text f.message)]).render
    | .notice rejection => rejection.message

end Response

end QueryConsole.Http
