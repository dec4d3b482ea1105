import DseDriver.Cql.Containers
import DseDriver.Encoding.Buffer
import DseDriver.Request.RetryPolicy

/-!
# Bound elements

The elements of a statement and the buffers that the encoders of requests take from them; `none` is
a failed assertion.
-/

namespace DseDriver.Encoding

open Lib Cql DseDriver.Request

/-- `Request::EncodingCache`, from the addresses of collections. -/
abbrev EncodingCache := Nat → Option Buffer

/-- An element of a statement, with the address of its collection if it has one. -/
structure BoundElement where
  element : Element
  address : Nat
  deriving DecidableEq, Repr

/-- `Element::get_buffer_cached`, with the cache it leaves. -/
def BoundElement.getBufferCached (version : Int) (cache : EncodingCache) (addToCache : Bool)
    (bound : BoundElement) : Option (Buffer × EncodingCache) :=
  match bound.element with
  | .collection collection =>
    match cache bound.address with
    | some buf => some (buf, cache)
    | none =>
      let buf := collection.encodeWithLength version
      some (buf, if addToCache then Function.update cache bound.address (some buf) else cache)
  | .buffer buf => some (buf, cache)
  | .nul => some (encodeNull, cache)
  | .unset => none

end DseDriver.Encoding
