/-
This file turns an analysis into JSON documents: one for the whole of it, or one for each
routine. Without routines the instructions stand in their place. Parts that may be empty,
such as gaps, are left out when they are.
-/

import Cartridge.Analysis
import Cartridge.Json.Document
import Cartridge.Report.Format
import Cartridge.Report.Listing

namespace Cartridge

open Json (Document)

/-- A field that is left out if its value is missing. -/
def optionalField (key : String) : Option Document → List (String × Document)
  | some value => [(key, value)]
  | none => []

/-- A field that is left out if its list is empty. -/
def listField (key : String) : List Document → List (String × Document)
  | [] => []
  | items => [(key, .list items)]

/-- An address as text. -/
def Address.document (address : Address) : Document :=
  .string address.text

/-- An address as bank and place. -/
def Address.partsDocument (address : Address) : Document :=
  .record [("bank", .natural address.bank.toNat), ("addr", .natural address.low.toNat)]

/-- An instruction. -/
def Instruction.document (instruction : Instruction) : Document :=
  .record
    ([("offset", .natural instruction.offset), ("address", instruction.address.document),
      ("bytes", .string instruction.byteText), ("mnemonic", .string instruction.mnemonic.text),
      ("text", .string instruction.text), ("size", .natural instruction.size)] ++
      optionalField "resolved" (instruction.resolved.map Document.natural))

/-- A seed. -/
def Seed.document (seed : Seed) : Document :=
  match seed with
  | .vector interrupt =>
    .record [("source", .string seed.keyword), ("vector", .string interrupt.keyword)]
  | _ => .record [("source", .string seed.keyword)]

/-- A span as a pair. -/
def Span.document (span : Span) : Document :=
  .list [.natural span.start, .natural span.stop]

/-- A routine. -/
def Routine.document (routine : Routine) : Document :=
  .record
    ([("name", .string routine.name), ("start", .natural routine.start),
      ("end", .natural routine.stop), ("address", routine.address.document),
      ("kind", .string routine.role.keyword), ("tag", .string routine.trust.keyword),
      ("seed", routine.seed.document), ("termination", .string routine.ending.keyword),
      ("calls", .list (routine.calls.map Address.document)),
      ("jumps", .list (routine.jumps.map Address.document))] ++
      listField "unmapped_targets" (routine.unmapped.map Address.document) ++
      listField "gaps" (routine.gaps.map Span.document) ++
      [("instructions", .list (routine.instructions.map Instruction.document))])

/-- A cross reference. -/
def Reference.document (reference : Reference) : Document :=
  .record
    [("from", .natural reference.source), ("to", .natural reference.target),
      ("kind", .string reference.kind.keyword),
      ("from_address", reference.sourceAddress.partsDocument),
      ("to_address", reference.targetAddress.partsDocument)]

/-- A problem. -/
def Issue.document (issue : Issue) : Document :=
  let details := match issue with
    | .truncated offset | .unresolved offset => [("offset", Document.natural offset)]
    | .weakHeader points => [("confidence", .hundredths points)]
    | .unmapped offsets => [("start", .natural offsets.start), ("end", .natural offsets.stop)]
    | .exhausted remaining => [("remaining", .natural remaining)]
  .record (("kind", .string issue.keyword) :: details)

namespace Analysis

/-- Names by their offsets. -/
def namesDocument (names : Std.TreeMap Nat String) : Document :=
  .record (names.toList.map fun name => (toString name.1, .string name.2))

/-- The instructions of an analysis that found no routine. -/
def looseInstructions (analysis : Analysis) : List Document :=
  if analysis.routines.isEmpty then
    analysis.index.toList.map fun entry => entry.2.document
  else []

/-- The whole analysis. -/
def document (analysis : Analysis) : Document :=
  .record
    ([("mapping", .string analysis.detection.layout.title),
      ("confidence", .hundredths analysis.detection.points)] ++
      optionalField "title" (analysis.header.map fun header => .string header.title) ++
      [("functions", .list (analysis.routines.map Routine.document))] ++
      listField "listing" analysis.looseInstructions ++
      [("xrefs", .list (analysis.references.map Reference.document)),
        ("symbols", namesDocument analysis.symbols), ("labels", namesDocument analysis.labels),
        ("issues", .list (analysis.issues.map Issue.document)),
        ("unanalyzed", .list (analysis.unanalyzed.map Document.natural)),
        ("budget_exhausted", .boolean analysis.exhausted)])

/-- The documents of the routines, or of the instructions if there are no routines. -/
def lineDocuments (analysis : Analysis) : List Document :=
  if analysis.routines.isEmpty then analysis.looseInstructions
  else analysis.routines.map Routine.document

/-- The report of an analysis in a format. -/
def report (analysis : Analysis) : ReportFormat → String
  | .text => Listing.text analysis
  | .json => analysis.document.pretty
  | .jsonLines =>
    analysis.lineDocuments.foldl (fun written document => written ++ document.compact ++ "\n") ""

end Analysis

end Cartridge
