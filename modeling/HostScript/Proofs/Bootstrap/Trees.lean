import HostScript.Proofs.Syntax.Equality
import HostScript.Session.Basic

/-!
# The functions of the bootstrap script

The bootstrap script consists of definitions of functions and nothing else
(`compile_bootstrapScript`). Three of its functions count through a loop, which begins with the same
`guard` and ends with the same step to the next number (`advance`).
-/

namespace HostScript

/-! ## Definitions -/

/-- A definition of a function. -/
structure Definition where
  name : Name
  parameters : List Name
  body : List Stmt
  span : Span

namespace Definition

/-- A definition as a statement. -/
def statement (d : Definition) : Stmt := .function d.name d.parameters d.body false d.span

/-- The function that a definition makes in the root scope. -/
def closure (d : Definition) (id : Nat) : Closure := ⟨id, some d.name, d.parameters, d.body, ⟨0, []⟩⟩

end Definition

namespace Bootstrap

/-- The statement `if i >= n { break }`. -/
def guard (i atLeast n leave branch : Span) : Stmt :=
  .branch (.binary (.variable "i" i) .greaterEqual (.variable "n" n) atLeast) [.leave leave] none
    branch

/-- The statement `i = i + 1`. -/
def advance (i plus one assign : Span) : Stmt :=
  .assign "i" (.binary (.variable "i" i) .add (.literal (.number (Float.ofNat 1)) one) plus) assign

/-- The definition of `range`. -/
def range : Definition where
  name := "range"
  parameters := ["n"]
  span := ⟨131, 133, 4⟩
  body :=
    [.declare "result" (.array [] ⟨160, 161, 5⟩) ⟨147, 150, 5⟩,
      .declare "i" (.literal (.number (Float.ofNat 0)) ⟨173, 174, 6⟩) ⟨165, 168, 6⟩,
      .loop
        [guard ⟨191, 192, 8⟩ ⟨193, 195, 8⟩ ⟨196, 197, 8⟩ ⟨200, 205, 8⟩ ⟨188, 190, 8⟩,
          .expression
            (.call (.variable "arrayPushBack" ⟨212, 225, 9⟩)
              [.variable "result" ⟨226, 232, 9⟩, .variable "i" ⟨234, 235, 9⟩] ⟨225, 226, 9⟩)
            ⟨212, 225, 9⟩,
          advance ⟨245, 246, 10⟩ ⟨247, 248, 10⟩ ⟨249, 250, 10⟩ ⟨241, 242, 10⟩]
        ⟨177, 181, 7⟩,
      .give (some (.variable "result" ⟨264, 270, 12⟩)) ⟨257, 263, 12⟩]

/-- The definition of `forEach`. -/
def forEach : Definition where
  name := "forEach"
  parameters := ["array", "f"]
  span := ⟨274, 276, 15⟩
  body :=
    [.declare "i" (.literal (.number (Float.ofNat 0)) ⟨307, 308, 16⟩) ⟨299, 302, 16⟩,
      .declare "n"
        (.call (.variable "arrayLen" ⟨319, 327, 17⟩) [.variable "array" ⟨328, 333, 17⟩]
          ⟨327, 328, 17⟩)
        ⟨311, 314, 17⟩,
      .loop
        [guard ⟨351, 352, 19⟩ ⟨353, 355, 19⟩ ⟨356, 357, 19⟩ ⟨360, 365, 19⟩ ⟨348, 350, 19⟩,
          .expression
            (.call (.variable "f" ⟨372, 373, 20⟩)
              [.index (.variable "array" ⟨374, 379, 20⟩) (.variable "i" ⟨380, 381, 20⟩)
                ⟨379, 380, 20⟩]
              ⟨373, 374, 20⟩)
            ⟨372, 373, 20⟩,
          advance ⟨392, 393, 21⟩ ⟨394, 395, 21⟩ ⟨396, 397, 21⟩ ⟨388, 389, 21⟩]
        ⟨337, 341, 18⟩]

/-- The definition of `map`. -/
def map : Definition where
  name := "map"
  parameters := ["array", "f"]
  span := ⟨405, 407, 25⟩
  body :=
    [.declare "result" (.array [] ⟨439, 440, 26⟩) ⟨426, 429, 26⟩,
      .expression
        (.call (.variable "forEach" ⟨444, 451, 27⟩)
          [.variable "array" ⟨452, 457, 27⟩,
            .function ["item"]
              [.expression
                (.call (.variable "arrayPushBack" ⟨471, 484, 27⟩)
                  [.variable "result" ⟨485, 491, 27⟩,
                    .call (.variable "f" ⟨493, 494, 27⟩) [.variable "item" ⟨495, 499, 27⟩]
                      ⟨494, 495, 27⟩]
                  ⟨484, 485, 27⟩)
                ⟨471, 484, 27⟩]
              ⟨459, 461, 27⟩]
          ⟨451, 452, 27⟩)
        ⟨444, 451, 27⟩,
      .give (some (.variable "result" ⟨514, 520, 28⟩)) ⟨507, 513, 28⟩]

/-- The definition of `filter`. -/
def filter : Definition where
  name := "filter"
  parameters := ["array", "keep"]
  span := ⟨524, 526, 31⟩
  body :=
    [.declare "result" (.array [] ⟨564, 565, 32⟩) ⟨551, 554, 32⟩,
      .expression
        (.call (.variable "forEach" ⟨569, 576, 33⟩)
          [.variable "array" ⟨577, 582, 33⟩,
            .function ["item"]
              [.branch
                (.call (.variable "keep" ⟨603, 607, 34⟩) [.variable "item" ⟨608, 612, 34⟩]
                  ⟨607, 608, 34⟩)
                [.expression
                  (.call (.variable "arrayPushBack" ⟨616, 629, 34⟩)
                    [.variable "result" ⟨630, 636, 34⟩, .variable "item" ⟨638, 642, 34⟩]
                    ⟨629, 630, 34⟩)
                  ⟨616, 629, 34⟩]
                none ⟨600, 602, 34⟩]
              ⟨584, 586, 33⟩]
          ⟨576, 577, 33⟩)
        ⟨569, 576, 33⟩,
      .give (some (.variable "result" ⟨660, 666, 36⟩)) ⟨653, 659, 36⟩]

/-- The definition of `reduce`. -/
def reduce : Definition where
  name := "reduce"
  parameters := ["array", "f", "initial"]
  span := ⟨670, 672, 39⟩
  body :=
    [.declare "acc" (.variable "initial" ⟨713, 720, 40⟩) ⟨703, 706, 40⟩,
      .expression
        (.call (.variable "forEach" ⟨723, 730, 41⟩)
          [.variable "array" ⟨731, 736, 41⟩,
            .function ["item"]
              [.assign "acc"
                (.call (.variable "f" ⟨756, 757, 41⟩)
                  [.variable "acc" ⟨758, 761, 41⟩, .variable "item" ⟨763, 767, 41⟩]
                  ⟨757, 758, 41⟩)
                ⟨750, 753, 41⟩]
              ⟨738, 740, 41⟩]
          ⟨730, 731, 41⟩)
        ⟨723, 730, 41⟩,
      .give (some (.variable "acc" ⟨781, 784, 42⟩)) ⟨774, 780, 42⟩]

/-- The definition of `join`. -/
def join : Definition where
  name := "join"
  parameters := ["array", "separator"]
  span := ⟨788, 790, 45⟩
  body :=
    [.declare "out" (.literal (.string []) ⟨828, 830, 46⟩) ⟨818, 821, 46⟩,
      .declare "i" (.literal (.number (Float.ofNat 0)) ⟨841, 842, 47⟩) ⟨833, 836, 47⟩,
      .declare "n"
        (.call (.variable "arrayLen" ⟨853, 861, 48⟩) [.variable "array" ⟨862, 867, 48⟩]
          ⟨861, 862, 48⟩)
        ⟨845, 848, 48⟩,
      .loop
        [guard ⟨885, 886, 50⟩ ⟨887, 889, 50⟩ ⟨890, 891, 50⟩ ⟨894, 899, 50⟩ ⟨882, 884, 50⟩,
          .branch
            (.binary (.variable "i" ⟨909, 910, 51⟩) .greater
              (.literal (.number (Float.ofNat 0)) ⟨913, 914, 51⟩) ⟨911, 912, 51⟩)
            [.assign "out"
              (.binary (.variable "out" ⟨923, 926, 51⟩) .add
                (.variable "separator" ⟨929, 938, 51⟩) ⟨927, 928, 51⟩)
              ⟨917, 920, 51⟩]
            none ⟨906, 908, 51⟩,
          .assign "out"
            (.binary (.variable "out" ⟨951, 954, 52⟩) .add
              (.call (.variable "toString" ⟨957, 965, 52⟩)
                [.index (.variable "array" ⟨966, 971, 52⟩) (.variable "i" ⟨972, 973, 52⟩)
                  ⟨971, 972, 52⟩]
                ⟨965, 966, 52⟩)
              ⟨955, 956, 52⟩)
            ⟨945, 948, 52⟩,
          advance ⟨984, 985, 53⟩ ⟨986, 987, 53⟩ ⟨988, 989, 53⟩ ⟨980, 981, 53⟩]
        ⟨871, 875, 49⟩,
      .give (some (.variable "out" ⟨1003, 1006, 55⟩)) ⟨996, 1002, 55⟩]

/-- The definition of `max`. -/
def max : Definition where
  name := "max"
  parameters := ["a", "b"]
  span := ⟨1010, 1012, 58⟩
  body :=
    [.branch
        (.binary (.variable "a" ⟨1030, 1031, 59⟩) .greater (.variable "b" ⟨1034, 1035, 59⟩)
          ⟨1032, 1033, 59⟩)
        [.give (some (.variable "a" ⟨1045, 1046, 59⟩)) ⟨1038, 1044, 59⟩] none ⟨1027, 1029, 59⟩,
      .give (some (.variable "b" ⟨1058, 1059, 60⟩)) ⟨1051, 1057, 60⟩]

/-- The definition of `min`. -/
def min : Definition where
  name := "min"
  parameters := ["a", "b"]
  span := ⟨1063, 1065, 63⟩
  body :=
    [.branch
        (.binary (.variable "a" ⟨1083, 1084, 64⟩) .less (.variable "b" ⟨1087, 1088, 64⟩)
          ⟨1085, 1086, 64⟩)
        [.give (some (.variable "a" ⟨1098, 1099, 64⟩)) ⟨1091, 1097, 64⟩] none ⟨1080, 1082, 64⟩,
      .give (some (.variable "b" ⟨1111, 1112, 65⟩)) ⟨1104, 1110, 65⟩]

/-- All definitions of the bootstrap script, in order. -/
def definitions : List Definition := [range, forEach, map, filter, reduce, join, max, min]

/-- The bootstrap script is nothing but these definitions. -/
theorem compile_bootstrapScript :
    compile Session.leastDepth bootstrapScript = .ok (definitions.map Definition.statement) := by
  have hsame : (compile Session.leastDepth bootstrapScript).toOption.any
      (blockSame · (definitions.map Definition.statement)) = true := by
    decide +kernel
  cases hcompile : compile Session.leastDepth bootstrapScript with
  | error fault =>
    rw [hcompile] at hsame
    contradiction
  | ok statements =>
    rw [hcompile] at hsame
    rw [eq_of_same.2.1 statements _ hsame]

end Bootstrap

end HostScript
