import AdminPolicy.Text.Split

/-!
# Compiled policies

What a policy comes to: blocks of sudoers lines, and an authorization document that says who counts as an
administrator. Both are rendered as the text of a file. Rendering keeps blocks apart by an empty line after each.
-/

namespace AdminPolicy

open Text

/-- The comment that every generated file begins with. -/
def generatedHeader : String :=
  "# This file is managed by privguard.\n# Do not edit this file manually.\n# Any changes will be overwritten.\n\n"

/-- The sudoers lines that one entry contributes. -/
abbrev RuleBlock := List String

/-- Whether there is an authorization document, and whom it names. -/
inductive Authorization where
  /-- There is none: the host's own setting stands. -/
  | absent
  /-- The host's administrators stay, and the granted ones follow them. -/
  | merged (system : String) (granted : List String)
  /-- Only the granted ones are administrators. -/
  | explicitOnly (granted : List String)
  deriving DecidableEq, Repr

namespace Authorization

/-- The section of the administrators' setting. -/
def sectionName : String := "Configuration"

def keyName : String := "AdminIdentities"

/-- The administrators that the document names, if there is one. -/
def adminIdentities? : Authorization → Option String
  | .absent => none
  | .merged system granted =>
    let names := joinStrings ";" granted
    if system = "" then some names else some (system ++ ";" ++ names)
  | .explicitOnly granted => some (joinStrings ";" granted)

/-- The text of the document, if there is one. -/
def render? (a : Authorization) : Option String :=
  a.adminIdentities?.map fun ids =>
    generatedHeader ++ "[" ++ sectionName ++ "]\n" ++ keyName ++ "=" ++ ids ++ "\n"

end Authorization

/-- Both documents that a policy comes to. -/
structure CompiledPolicy where
  blocks : List RuleBlock
  authorization : Authorization
  deriving DecidableEq, Repr

namespace CompiledPolicy

def rules (p : CompiledPolicy) : List String := p.blocks.flatten

/-- Lines, each ended by a line feed. -/
def renderLines : List String → String
  | [] => ""
  | l :: ls => l ++ "\n" ++ renderLines ls

/-- Blocks, each followed by an empty line. -/
def renderBlocks : List RuleBlock → String
  | [] => ""
  | b :: bs => renderLines b ++ "\n" ++ renderBlocks bs

def renderRules (p : CompiledPolicy) : String := generatedHeader ++ renderBlocks p.blocks

end CompiledPolicy

end AdminPolicy
