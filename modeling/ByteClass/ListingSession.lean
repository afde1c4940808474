import ByteClass.AnnotatedListing
import ByteClass.BoundedSink

/-!
# Listings written into a sink

A session writes parts of a listing into one sink and may change the room that
the sink has left.  A step that fails leaves what it wrote; the next step starts
its part from the beginning.  No step follows one that never ends.
-/

namespace ByteClass

inductive ListingStep
  | write (part : ListingPart)
  | setRoom (room : Nat)
  deriving DecidableEq

/-- What one step added to the sink, and why it stopped early, if it did. -/
structure ListingReport where
  added : List UInt8
  error : Option WriteError
  deriving DecidableEq

namespace ListingStep

def apply (listing : Listing) (sink : Sink) :
    ListingStep → Option (Sink × Option WriteError)
  | .write part => sink.writeFragments (listing.fragments part)
  | .setRoom room => some ({ sink with room := some room }, none)

def report (before after : Sink) (error : Option WriteError) : ListingReport where
  added := (after.received.extract before.received.size).toList
  error := error

end ListingStep

/-- The sink after all steps before the first that never ends, and one report for
each of them. -/
def runListing (listing : Listing) (sink : Sink) :
    List ListingStep → Sink × List ListingReport
  | [] => (sink, [])
  | step :: steps =>
      match step.apply listing sink with
      | none => (sink, [])
      | some (next, error) =>
          let (last, reports) := runListing listing next steps
          (last, ListingStep.report sink next error :: reports)

end ByteClass
