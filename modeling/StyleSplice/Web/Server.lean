import StyleSplice.Web.Address
import StyleSplice.Web.Header

/-!
# Servers

A server says what becomes of a request by its address: a page comes back, which may point to another
address, or something happens on the way.
-/

namespace StyleSplice

/-- What may happen to a request on its way. -/
inductive Mishap
  | connectTimeout
  | readTimeout
  | writeTimeout
  | poolTimeout
  | noConnection
  | brokenRead
  | badProtocol
  | badProxy
  | unknownScheme
  | undecodable
  | endlessRedirects
deriving DecidableEq, Repr

/-- Whether somebody lost patience. -/
def Mishap.isTimeout : Mishap → Bool
  | .connectTimeout | .readTimeout | .writeTimeout | .poolTimeout => true
  | _ => false

/-- What becomes of a request. -/
inductive Reaction
  | page (status : Int) (text : Text) (location : Option Text)
  | mishap (m : Mishap) (message : Text)
deriving DecidableEq, Repr

/-- A server, or the whole web. -/
structure Server where
  react : Address → Reaction
  /-- A bound for the number of its sheets that can lie on one path of imports. -/
  size : Nat

namespace Server

/-- The reactions to addresses that are listed by their texts. Any other page is not found. Several
addresses may be written for one page, in the pages themselves; so their lengths go into the bound. -/
def ofRoutes (routes : List (Text × Reaction)) : Server where
  react a := (field? a.text routes).getD (.page 404 [] none)
  size :=
    let texts := routes.flatMap fun
      | (_, .page _ text _) => text
      | _ => []
    routes.length * (texts.length + 1)

/-- The schemes that requests are sent by. -/
def isSent (scheme : Text) : Bool :=
  ["http", "https", "ws", "wss"].any fun s => s.toList == scheme

/-- The web without a connection. Addresses that nobody could be asked for are told apart. -/
def offline : Server where
  react a :=
    if a.scheme.isEmpty then
      .mishap .unknownScheme
        "Request URL is missing an 'http://' or 'https://' protocol.".toList
    else if isSent a.scheme then
      .mishap .noConnection "[Errno -3] Temporary failure in name resolution".toList
    else
      .mishap .unknownScheme
        ("Request URL has an unsupported protocol '".toList ++ a.scheme ++ "://'.".toList)
  size := 0

end Server

end StyleSplice
