import Gway.Http

/-! The host that a request is for. -/

namespace Gway

/-- The text of the first Host field, and without such a field the host of the URI. -/
def reqHost (req : Parts) : String :=
  match HeaderMap.get req.headers "host" with
  | some value => (HeaderValue.toStr value).getD ""
  | none => req.uri.host.getD ""

variable {req : Parts}

theorem reqHost_of_field {value : HeaderValue} {text : String}
    (field : HeaderMap.get req.headers "host" = some value)
    (read : HeaderValue.toStr value = some text)
    : reqHost req = text := by
  simp only [reqHost, field, read, Option.getD_some]

/-- A Host field that cannot be read as text is as good as an empty one. -/
theorem reqHost_of_unreadable {value : HeaderValue}
    (field : HeaderMap.get req.headers "host" = some value)
    (unreadable : HeaderValue.toStr value = none)
    : reqHost req = "" := by
  simp only [reqHost, field, unreadable, Option.getD_none]

theorem reqHost_of_uri {authority : Authority}
    (missing : HeaderMap.get req.headers "host" = none)
    (named : req.uri.authority = some authority)
    : reqHost req = authority.host := by
  simp only [reqHost, missing, Uri.host, named, Option.map_some, Option.getD_some]

end Gway
