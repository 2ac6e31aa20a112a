import HostScript.Text.UpperCase

/-!
# Methods of the host

The methods that a host may offer to scripts, with the kinds of their parameters and results. A
method has a name on the wire; scripts call it by that name in camel case.
-/

namespace HostScript

/-- What a parameter of a host method takes: a buffer number, a string, or the name of a function,
for which a named function may stand. -/
inductive ParameterKind
  | buffer
  | text
  | function
deriving DecidableEq

/-- The short name of a parameter kind. -/
def ParameterKind.label : ParameterKind → String
  | buffer => "id"
  | text => "str"
  | function => "fn"

/-- What a host method answers, if anything. -/
inductive ResultKind
  | buffer
  | text
deriving DecidableEq

/-- The short name of a result kind. -/
def ResultKind.label : ResultKind → String
  | buffer => "id"
  | text => "str"

/-- The methods that a host may offer. -/
inductive HostMethod
  | log
  | setActiveBuffer
  | getActiveBuffer
  | registerGlobalKeybind
  | createSpecialBuffer
  | registerBufferKeybind
  | setBufferContent
  | getBufferInput
  | setBufferInput
  | registerBufferInputHook
  | getWorkspaceDir
  | runAction
  | speak
  | listBuffers
  | getActions
  | getDefinitions
  | getReferences
  | getWorkspaceDiagnostics
  | getViewportSize
  | selectRange
  | openFile
  | setSearchQuery
deriving DecidableEq

/-- What is to be known of a method before it is called. -/
structure MethodSignature where
  name : String
  parameters : List (String × ParameterKind)
  result : Option ResultKind

namespace HostMethod

/-- All methods, in the order in which they are offered. -/
def all : List HostMethod :=
  [log, setActiveBuffer, getActiveBuffer, registerGlobalKeybind, createSpecialBuffer,
    registerBufferKeybind, setBufferContent, getBufferInput, setBufferInput,
    registerBufferInputHook, getWorkspaceDir, runAction, speak, listBuffers, getActions,
    getDefinitions, getReferences, getWorkspaceDiagnostics, getViewportSize, selectRange,
    openFile, setSearchQuery]

theorem mem_all (m : HostMethod) : m ∈ all := by cases m <;> decide

/-- The name, parameters and result of a method. -/
def signature : HostMethod → MethodSignature
  | log => ⟨"rlog", [("message", .text)], none⟩
  | setActiveBuffer => ⟨"set_active_buffer", [("id", .buffer)], none⟩
  | getActiveBuffer => ⟨"get_active_buffer", [], some .buffer⟩
  | registerGlobalKeybind =>
    ⟨"register_global_keybind", [("definition", .text), ("function_id", .function)], none⟩
  | createSpecialBuffer => ⟨"create_special_buffer", [], some .buffer⟩
  | registerBufferKeybind =>
    ⟨"register_buffer_keybind",
      [("buffer_id", .buffer), ("definition", .text), ("function_id", .function)], none⟩
  | setBufferContent => ⟨"set_buffer_content", [("buffer_id", .buffer), ("content", .text)], none⟩
  | getBufferInput => ⟨"get_buffer_input", [("buffer_id", .buffer)], some .text⟩
  | setBufferInput => ⟨"set_buffer_input", [("buffer_id", .buffer), ("input", .text)], none⟩
  | registerBufferInputHook =>
    ⟨"register_buffer_input_hook", [("buffer_id", .buffer), ("function_id", .function)], none⟩
  | getWorkspaceDir => ⟨"get_workspace_dir", [], some .text⟩
  | runAction => ⟨"run_action", [("action", .text)], some .text⟩
  | speak => ⟨"tts", [("text", .text)], none⟩
  | listBuffers => ⟨"list_buffers", [], some .text⟩
  | getActions => ⟨"get_actions", [], some .text⟩
  | getDefinitions => ⟨"get_definitions", [], some .text⟩
  | getReferences => ⟨"get_references", [], some .text⟩
  | getWorkspaceDiagnostics => ⟨"get_workspace_diagnostics", [], some .text⟩
  | getViewportSize => ⟨"get_viewport_size", [], some .text⟩
  | selectRange => ⟨"select_range", [("selection", .text)], none⟩
  | openFile => ⟨"open_file", [("path", .text)], none⟩
  | setSearchQuery => ⟨"set_search_query", [("query", .text)], none⟩

/-- The name of a method on the wire. -/
def name (m : HostMethod) : Text := m.signature.name

/-- The kinds of the parameters of a method. -/
def kinds (m : HostMethod) : List ParameterKind := m.signature.parameters.map (·.2)

/-- The name by which scripts call a method. -/
def scriptName (m : HostMethod) : Text := m.name.lowerCamel

/-- The method of a name on the wire. -/
def ofName? (name : Text) : Option HostMethod := all.find? (·.name = name)

end HostMethod

end HostScript
