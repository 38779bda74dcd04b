/-! # The vocabulary of templates

The elements that a browser knows, the components and the directives that the runtime provides,
and the elements with a content model of their own. All look-ups tell capitals from small letters.
-/

namespace Registrar.Markup

def voidTags : List String :=
  ["area", "base", "br", "col", "embed", "hr", "img", "input", "link", "meta", "param", "source",
    "track", "wbr"]

def htmlTags : List String :=
  ["html", "body", "base", "head", "link", "meta", "style", "title", "address", "article", "aside",
    "footer", "header", "hgroup", "h1", "h2", "h3", "h4", "h5", "h6", "nav", "section", "div",
    "dd", "dl", "dt", "figcaption", "figure", "picture", "hr", "img", "li", "main", "ol", "p",
    "pre", "ul", "a", "b", "abbr", "bdi", "bdo", "br", "cite", "code", "data", "dfn", "em", "i",
    "kbd", "mark", "q", "rp", "rt", "ruby", "s", "samp", "small", "span", "strong", "sub", "sup",
    "time", "u", "var", "wbr", "area", "audio", "map", "track", "video", "embed", "object",
    "param", "source", "canvas", "script", "noscript", "del", "ins", "caption", "col", "colgroup",
    "table", "thead", "tbody", "td", "th", "tr", "button", "datalist", "fieldset", "form",
    "input", "label", "legend", "meter", "optgroup", "option", "output", "progress", "select",
    "textarea", "details", "dialog", "menu", "summary", "template", "blockquote", "iframe",
    "tfoot"]

def svgTags : List String :=
  ["svg", "animate", "animateMotion", "animateTransform", "circle", "clipPath", "color-profile",
    "defs", "desc", "discard", "ellipse", "feBlend", "feColorMatrix", "feComponentTransfer",
    "feComposite", "feConvolveMatrix", "feDiffuseLighting", "feDisplacementMap",
    "feDistantLight", "feDropShadow", "feFlood", "feFuncA", "feFuncB", "feFuncG", "feFuncR",
    "feGaussianBlur", "feImage", "feMerge", "feMergeNode", "feMorphology", "feOffset",
    "fePointLight", "feSpecularLighting", "feSpotLight", "feTile", "feTurbulence", "filter",
    "foreignObject", "g", "hatch", "hatchpath", "image", "line", "linearGradient", "marker",
    "mask", "mesh", "meshgradient", "meshpatch", "meshrow", "metadata", "mpath", "path",
    "pattern", "polygon", "polyline", "radialGradient", "rect", "set", "solidcolor", "stop",
    "switch", "symbol", "text", "textPath", "title", "tspan", "unknown", "use", "view"]

def mathmlTags : List String :=
  ["annotation", "annotation-xml", "maction", "maligngroup", "malignmark", "math", "menclose",
    "merror", "mfenced", "mfrac", "mfraction", "mglyph", "mi", "mlabeledtr", "mlongdiv",
    "mmultiscripts", "mn", "mo", "mover", "mpadded", "mphantom", "mprescripts", "mroot", "mrow",
    "ms", "mscarries", "mscarry", "msgroup", "msline", "mspace", "msqrt", "msrow", "mstack",
    "mstyle", "msub", "msubsup", "msup", "mtable", "mtd", "mtext", "mtr", "munder", "munderover",
    "none", "semantics"]

/-- Components that the runtime provides itself. -/
def builtinComponents : List String :=
  ["Teleport", "teleport", "Suspense", "suspense", "KeepAlive", "keep-alive", "BaseTransition",
    "base-transition", "Transition", "transition", "TransitionGroup", "transition-group"]

/-- Directives that are compiled, not looked up when the page runs. -/
def builtinDirectives : List String :=
  ["bind", "on", "if", "else", "else-if", "for", "show", "model", "html", "text", "slot", "once",
    "memo", "cloak", "pre", "is"]

def structuralDirectives : List String := ["if", "else", "else-if", "for", "slot"]

/-- Elements below the top level whose content is text alone. -/
def rawTextTags : List String := ["script", "style", "textarea", "title"]

def templateTag : String := "template"

def isVoid (tag : String) : Bool := voidTags.contains tag

def isNative (tag : String) : Bool :=
  htmlTags.contains tag || svgTags.contains tag || mathmlTags.contains tag

def isBuiltinComponent (tag : String) : Bool := builtinComponents.contains tag

def isBuiltinDirective (name : String) : Bool := builtinDirectives.contains name

def isStructuralDirective (name : String) : Bool := structuralDirectives.contains name

def lowerName (name : List Char) : List Char := name.map Char.toLower

def isRawText (tag : String) : Bool := rawTextTags.contains (String.ofList (lowerName tag.toList))

end Registrar.Markup
