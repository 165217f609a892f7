/-!
# Rendering faults

Why a template is not rendered. The template engine words these in its own way and adds the place in
the body; the messages here only keep what a reason says.
-/

namespace DemoScaffold.Template

inductive RenderFault where
  /-- A marker has no value. -/
  | unbound (marker : String)
  /-- A tag is malformed, or the tags do not nest. -/
  | malformed
  | unknownHelper (name : String)
  | unknownDirective (name : String)
  | unknownPartial (name : String)
  /-- A helper is not given what it asks for at some place. -/
  | missingOperand (place : Nat)
  /-- The name for a partial is no text. -/
  | namelessPartial
  /-- A partial is to be named, but the tag has no block. -/
  | missingBlock
  /-- An item of a list is asked for by what is no number. -/
  | badIndex (name : String)
  | badLevel (level : String)
  /-- Partials are inserted in each other without end. -/
  | tooDeep
deriving DecidableEq, Repr, Inhabited

namespace RenderFault

/-- The reason in words. -/
def message : RenderFault → String
  | .unbound marker => "no value for " ++ marker
  | .malformed => "malformed tag"
  | .unknownHelper name => "helper not found: " ++ name
  | .unknownDirective name => "decorator not found: " ++ name
  | .unknownPartial name => "partial not found: " ++ name
  | .missingOperand place => "missing parameter at index " ++ toString place
  | .namelessPartial => "the name of a partial has to be a string"
  | .missingBlock => "block content required"
  | .badIndex name => "no index of a list: " ++ name
  | .badLevel level => "invalid logging level: " ++ level
  | .tooDeep => "partials are nested too deeply"

end RenderFault

end DemoScaffold.Template
