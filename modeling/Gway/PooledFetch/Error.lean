import Mathlib.Data.String.Defs

/-! The errors of `pooled_fetch` and what it asks about an error of `hyper`. -/

namespace Gway.PooledFetch

/-- `hyper` tells apart requests that it gave up before sending, channels that are closed
and everything else.
-/
inductive HyperErrorKind where
  | canceled
  | closed
  | other
deriving DecidableEq, Repr

structure HyperError where
  kind : HyperErrorKind
  text : String
deriving DecidableEq, Repr

def HyperError.isCanceled (err : HyperError) : Bool := err.kind == .canceled

def HyperError.isClosed (err : HyperError) : Bool := err.kind == .closed

inductive Error where
  | io (text : String)
  | hyper (err : HyperError)
  | addrParse (text : String)
deriving DecidableEq, Repr

def Error.display : Error → String
  | io text => "io错误: " ++ text
  | hyper err => "hyper错误: " ++ err.text
  | addrParse text => "地址解析错误: " ++ text

end Gway.PooledFetch
