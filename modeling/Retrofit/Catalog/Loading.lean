import Retrofit.Catalog.Location
import Retrofit.Catalog.Shape
import Retrofit.Files.Basic

/-!
# Loading a catalog

A catalog that is loaded from a file comes with the time of the file's last modification, because
artifacts that are not newer have to be rebuilt. One from the network comes without a time.

**The network.** A program may be built without it, and then refuses every URL. Otherwise what a URL
gives is up to the network (`Network.enabled`): there may be no answer, the answer may have a status
other than success, and its body may break off.
-/

namespace Retrofit

inductive CatalogError where
  | unreadable (path : String) (fault : FileFault)
  | malformed (flaw : Flaw)
  /-- There is no answer, or it breaks off. -/
  | http (reason : String)
  /-- The answer from a URL has a status other than success. -/
  | status (url : String) (code : Nat)
  | networkDisabled (url : String)
deriving DecidableEq, Repr

def CatalogError.message : CatalogError → String
  | .unreadable path fault => "Failed to read patch catalog " ++ path ++ ": " ++ fault.message
  | .malformed flaw => flaw.message
  | .http reason => "HTTP error: " ++ reason
  | .status url code =>
    "Could not download patch catalog from " ++ url ++ ": HTTP " ++ toString code
  | .networkDisabled url => "Remote catalog " ++ url ++ " requires the `network` feature"

/-- An answer from the network. -/
structure Response where
  /-- The URL that has answered, behind all redirections. -/
  url : String
  status : Nat
  /-- The text, or why it breaks off. -/
  body : Except String String

def Response.isSuccess (r : Response) : Bool :=
  200 ≤ r.status && r.status < 300

/-- What a program can fetch. -/
inductive Network where
  | disabled
  /-- For each URL the answer, or why there is none. -/
  | enabled (answer : String → Except String Response)

def Network.fetch (network : Network) (url : String) : Except CatalogError String :=
  match network with
  | .disabled => .error (.networkDisabled url)
  | .enabled answer =>
    match answer url with
    | .error reason => .error (.http reason)
    | .ok response =>
      if response.isSuccess then response.body.mapError .http
      else .error (.status response.url response.status)

/-- A catalog, and how old its file is. -/
structure LoadedCatalog where
  catalog : Catalog := []
  modified : Option Nat := none
deriving DecidableEq, Repr

namespace CatalogLocation

/-- The text at a location, and the time of the file that holds it. -/
def read (network : Network) (files : Files) :
    CatalogLocation → Except CatalogError (String × Option Nat)
  | .remote url => (network.fetch url).map (·, none)
  | .file path =>
    match files.readText path with
    | .error fault => .error (.unreadable path fault)
    | .ok text => .ok (text, (files.modified path).toOption)

def load (network : Network) (files : Files) (location : CatalogLocation) :
    Except CatalogError LoadedCatalog := do
  let (text, modified) ← location.read network files
  match Catalog.ofText text with
  | .error flaw => .error (.malformed flaw)
  | .ok catalog => .ok ⟨catalog, modified⟩

end CatalogLocation

end Retrofit
