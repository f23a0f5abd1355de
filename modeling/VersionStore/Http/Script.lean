import VersionStore.Http.Message

/-! A server that follows a script.

It gives the responses of a list, one after the other, and keeps a log of the requests.
Where the list has no response, and when it is used up, the connection fails. It knows no
encryption, so a request for a secure URL does not reach it. -/
namespace VersionStore

/-- The responses to come, and the requests so far, the last one first. -/
structure HttpScript where
  responses : List (Option HttpResponse)
  log : List HttpRequest := []

namespace HttpScript

/-- Gives the next response. -/
def respond (request : HttpRequest) (script : HttpScript) : Option HttpResponse × HttpScript :=
  if request.url.secure then (none, script)
  else (script.responses.head?.join, ⟨script.responses.drop 1, request :: script.log⟩)

end HttpScript

end VersionStore
