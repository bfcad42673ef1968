/-!
The extractor that runs in the browser: script text that finds a named sheet in a
combined stylesheet and remembers it per stylesheet and name.
-/

namespace StyleBundler.Sheet

/-- The variable that holds the combined stylesheet. -/
def bundleVariable : String := "__css_bundle__"

/-- The function that extracts a sheet by its name. -/
def getterName : String := "__get_bundled_sheet__"

def snippet : String :=
  String.join <| [
    "const __cached_sheets__ = new WeakMap();",
    "",
    "const __get_bundled_sheet__ = (bundle, name) => \x7b",
    "  let sheets = __cached_sheets__.get(bundle);",
    "  if (sheets === undefined) \x7b",
    "    sheets = new Map();",
    "    __cached_sheets__.set(bundle, sheets);",
    "  \x7d",
    "  const cached = sheets.get(name);",
    "  if (cached !== undefined) \x7b",
    "    return cached;",
    "  \x7d",
    "  for (const rule of bundle.cssRules) \x7b",
    "    if (!(rule instanceof CSSSupportsRule)) continue;",
    "    const match = /^sheet\\((.+)\\)$/.exec(rule.conditionText.trim());",
    "    if (match === null || match[1] !== name) continue;",
    "    const sheet = new CSSStyleSheet();",
    "    for (const inner of rule.cssRules) \x7b",
    "      sheet.insertRule(inner.cssText, sheet.cssRules.length);",
    "    \x7d",
    "    sheets.set(name, sheet);",
    "    return sheet;",
    "  \x7d",
    "  return undefined;",
    "\x7d;"].map (· ++ "\n")

end StyleBundler.Sheet
