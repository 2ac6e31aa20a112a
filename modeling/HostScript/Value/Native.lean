import HostScript.Host.Method

/-!
# Native functions

The functions that scripts find in the root scope: the standard library, the functions that make
HTTP requests, and one function for every method of the host.
-/

namespace HostScript

/-- The functions of the standard library. -/
inductive StandardFunction
  | toJson | fromJson
  | print | toString
  | createArray | arrayLen | arrayGet | arraySet | arrayPushBack | arrayPopBack | arrayInsert
  | arrayRemove
  | createTable | tableSet | tableGet | tableKeys | tableMerge
  | stringSplitLines | stringLen | stringContains | stringToLower | stringWidth
  | stringTruncateToWidth | renderViewport
  | floor
deriving DecidableEq

namespace StandardFunction

/-- The standard library in the order in which its functions are bound. -/
def all : List StandardFunction :=
  [toJson, fromJson, print, toString, createArray, arrayLen, arrayGet, arraySet, arrayPushBack,
    arrayPopBack, arrayInsert, arrayRemove, createTable, tableSet, tableGet, tableKeys, tableMerge,
    stringSplitLines, stringLen, stringContains, stringToLower, stringWidth,
    stringTruncateToWidth, renderViewport, floor]

theorem mem_all (f : StandardFunction) : f ∈ all := by cases f <;> decide

/-- The name by which scripts call a function. -/
def name : StandardFunction → String
  | toJson => "toJson"
  | fromJson => "fromJson"
  | print => "print"
  | toString => "toString"
  | createArray => "createArray"
  | arrayLen => "arrayLen"
  | arrayGet => "arrayGet"
  | arraySet => "arraySet"
  | arrayPushBack => "arrayPushBack"
  | arrayPopBack => "arrayPopBack"
  | arrayInsert => "arrayInsert"
  | arrayRemove => "arrayRemove"
  | createTable => "createTable"
  | tableSet => "tableSet"
  | tableGet => "tableGet"
  | tableKeys => "tableKeys"
  | tableMerge => "tableMerge"
  | stringSplitLines => "stringSplitLines"
  | stringLen => "stringLen"
  | stringContains => "stringContains"
  | stringToLower => "stringToLower"
  | stringWidth => "stringWidth"
  | stringTruncateToWidth => "stringTruncateToWidth"
  | renderViewport => "renderViewport"
  | floor => "floor"

end StandardFunction

/-- The functions that make HTTP requests. -/
inductive HttpFunction
  | get
  | post
  | postWithToken
deriving DecidableEq

namespace HttpFunction

/-- The functions in the order in which they are bound. -/
def all : List HttpFunction := [get, post, postWithToken]

/-- The name by which scripts call a function. -/
def name : HttpFunction → String
  | get => "getRequest"
  | post => "postRequest"
  | postWithToken => "postRequestWithBearerToken"

end HttpFunction

/-- A function that is not written in a script. -/
inductive Native
  | standard (f : StandardFunction)
  | http (f : HttpFunction)
  | host (m : HostMethod)
deriving DecidableEq

namespace Native

/-- The name by which scripts call a function. -/
def name : Native → Text
  | standard f => f.name
  | http f => f.name
  | host m => m.scriptName

/-- The functions bound without a host, in order. -/
def library : List Native := StandardFunction.all.map .standard ++ HttpFunction.all.map .http

/-- The functions bound for the methods of a host, in order. -/
def ofHost : List Native := HostMethod.all.map .host

/-- The standard function of a name. -/
def standard? (name : Text) : Option StandardFunction :=
  StandardFunction.all.find? fun f => Text.ofString f.name = name

end Native

end HostScript
