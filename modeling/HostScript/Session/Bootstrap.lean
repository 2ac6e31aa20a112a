import HostScript.Text.CodePoint

/-!
# The bootstrap script

The script that a session runs before all others unless it is told otherwise. It defines functions
on arrays in terms of the standard library: `range`, `forEach`, `map`, `filter`, `reduce` and
`join`, and the larger and the smaller of two values.
-/

namespace HostScript

/-- The lines of the bootstrap script. -/
def bootstrapLines : List String :=
  ["# Bootstrap script: runs once per interpreter before any submitted script.",
   "# Everything defined here is global for later scripts.",
   "",
   "fn range(n) \x7b",
   "  let result = []",
   "  let i = 0",
   "  loop \x7b",
   "    if i >= n \x7b break \x7d",
   "    arrayPushBack(result, i)",
   "    i = i + 1",
   "  \x7d",
   "  return result",
   "\x7d",
   "",
   "fn forEach(array, f) \x7b",
   "  let i = 0",
   "  let n = arrayLen(array)",
   "  loop \x7b",
   "    if i >= n \x7b break \x7d",
   "    f(array[i])",
   "    i = i + 1",
   "  \x7d",
   "\x7d",
   "",
   "fn map(array, f) \x7b",
   "  let result = []",
   "  forEach(array, fn (item) \x7b arrayPushBack(result, f(item)) \x7d)",
   "  return result",
   "\x7d",
   "",
   "fn filter(array, keep) \x7b",
   "  let result = []",
   "  forEach(array, fn (item) \x7b",
   "    if keep(item) \x7b arrayPushBack(result, item) \x7d",
   "  \x7d)",
   "  return result",
   "\x7d",
   "",
   "fn reduce(array, f, initial) \x7b",
   "  let acc = initial",
   "  forEach(array, fn (item) \x7b acc = f(acc, item) \x7d)",
   "  return acc",
   "\x7d",
   "",
   "fn join(array, separator) \x7b",
   "  let out = \"\"",
   "  let i = 0",
   "  let n = arrayLen(array)",
   "  loop \x7b",
   "    if i >= n \x7b break \x7d",
   "    if i > 0 \x7b out = out + separator \x7d",
   "    out = out + toString(array[i])",
   "    i = i + 1",
   "  \x7d",
   "  return out",
   "\x7d",
   "",
   "fn max(a, b) \x7b",
   "  if a > b \x7b return a \x7d",
   "  return b",
   "\x7d",
   "",
   "fn min(a, b) \x7b",
   "  if a < b \x7b return a \x7d",
   "  return b",
   "\x7d"]

/-- The bootstrap script. -/
def bootstrapScript : Text :=
  bootstrapLines.flatMap fun line => Text.ofString line ++ [.scalar '\n']

end HostScript
