import Intake.Cloud.Exchange
import Intake.Cloud.Markup
import Intake.Relational.Source

set_option autoImplicit false

/-!
Objects in buckets behind a line. A bucket whose name can be part of a host name is reached at a
host of its own, any other one by the path.
-/

namespace Intake.Cloud

open Intake.Text Intake.ObjectFile Intake.Relational

structure ObjectRequest where
  method : String := "GET"
  address : String
  deriving DecidableEq, Repr, Inhabited

namespace ObjectStore

def isLabelChar (c : Char) : Bool := ('a' ≤ c && c ≤ 'z') || Digits.isDigit c

/-- A name that can be one part of a host name: three to sixty-three small letters, digits and
hyphens, with no hyphen at its ends. -/
def isHostLabel (name : List Char) : Bool :=
  3 ≤ name.length && name.length ≤ 63 && name.all (fun c => isLabelChar c || c = '-')
    && name.head?.all isLabelChar && name.getLast?.all isLabelChar

/-- The address of a bucket in a region, with a slash at the end. -/
def bucketAddress (region bucket : String) : String :=
  if isHostLabel bucket.toList then s!"https://{bucket}.s3.{region}.amazonaws.com/"
  else
    let segment := String.ofList (Percent.encodeSegment bucket.toList)
    s!"https://s3.{region}.amazonaws.com/{segment}/"

/-- The address of a bucket below an address, with a slash at the end. -/
def bucketBelow (endpoint bucket : String) : String :=
  let segment := String.ofList (Percent.encodeSegment bucket.toList)
  if endpoint.endsWith "/" then s!"{endpoint}{segment}/" else s!"{endpoint}/{segment}/"

/-- The address of an object; there is none without a service, a bucket and a key. -/
def address? (site : Site) (l : Location) : Option String :=
  if !site.isKnown || l.bucket.isEmpty || l.key.isEmpty then none
  else
    let bucket := match site.endpoint with
      | some endpoint => bucketBelow endpoint l.bucket
      | none => bucketAddress (site.region.getD "") l.bucket
    some s!"{bucket}{String.ofList (Percent.encodePath l.key.toList)}?x-id=GetObject"

def refusalCode? (a : Answer) : Option String :=
  if a.isCut then none else a.text? >>= Markup.child? "Error" "Code"

def answer (l : Location) (delivery : Delivery) : Except SourceFault (List UInt8) :=
  let name := s!"s3://{l.bucket}/{l.key}"
  match delivery with
  | .lost => .error (.service s!"{name}: there is no answer")
  | .answered a =>
    if !a.isSuccess then
      match refusalCode? a with
      | some "NoSuchKey" => .error (.notFound s!"{name}: there is no such key")
      | some code => .error (.service s!"{name}: {code}")
      | none => .error (.service s!"{name}: the answer is not understood")
    else if a.isCut then .error (.service s!"{name}: the object breaks off")
    else .ok a.body

def get {σ : Type} (site : Site) (line : Line σ ObjectRequest) (l : Location) (state : σ) :
    Except SourceFault (List UInt8) × σ :=
  match address? site l with
  | none => (.error (.service s!"s3://{l.bucket}/{l.key}: there is no address"), state)
  | some address =>
    let (delivery, state) := line.send state { address }
    (answer l delivery, state)

end ObjectStore

end Intake.Cloud
