import ContractCalls.Table

/-!
Contract: the look of a drawn graph.

Owns the colours and styles of graph, calls and contracts, and the schemes that
go by a name.

Does not own: how a scheme is read from options.
-/

set_option autoImplicit false

namespace ContractCalls.Dot

/-- The look of the whole graph, and attributes of all nodes and all edges. -/
structure GraphStyle where
  background : Option String := none
  nodeAttributes : Table String String := {}
  edgeAttributes : Table String String := {}
  deriving Repr, DecidableEq, Inhabited

/-- Edge colours: of calls of a bare name, of calls through `this`, and of all
others. -/
structure CallColors where
  others : String := "orange"
  direct : String := "green"
  this : String := "green"
  deriving Repr, DecidableEq, Inhabited

structure ContractStyle where
  background : Option String := none
  color : String := "lightgray"
  fontColor : Option String := none
  style : Option String := none
  deriving Repr, DecidableEq, Inhabited

/-- The looks of contracts that are part of the analysed sources, and of those
that are only called. -/
structure ContractStyles where
  defined : ContractStyle := { background := some "lightgray" }
  mentioned : ContractStyle := {}
  deriving Repr, DecidableEq, Inhabited

structure ColorScheme where
  graph : GraphStyle := {}
  calls : CallColors := {}
  contracts : ContractStyles := {}
  deriving Repr, DecidableEq, Inhabited

namespace ColorScheme

/-- Light colours on a dark ground. -/
def dark : ColorScheme where
  graph :=
    { background := some "#2e3e56"
      nodeAttributes := ⟨[("style", "filled"), ("fillcolor", "#edad56"), ("color", "#edad56"),
        ("penwidth", "3")]⟩
      edgeAttributes := ⟨[("color", "#fcfcfc"), ("penwidth", "2"),
        ("fontname", "helvetica Neue Ultra Light")]⟩ }
  calls := { others := "white", direct := "#1bc6a6", this := "#80e097" }
  contracts :=
    { defined :=
        { background := some "#445773", color := "#445773", fontColor := some "#f0f0f0"
          style := some "rounded" }
      mentioned :=
        { background := some "#3b4b63", color := "#e8726d", fontColor := some "#f0f0f0"
          style := some "rounded,dashed" } }

/-- The schemes that go by a name, sorted by it. -/
def presets : List (String × ColorScheme) := [("dark", dark), ("default", {})]

def presetNames : List String := presets.map Prod.fst

/-- The scheme of a name. -/
def named? (name : String) : Option ColorScheme := presets.lookup name

end ColorScheme

end ContractCalls.Dot
