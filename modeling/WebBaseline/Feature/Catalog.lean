/-
  WebBaseline.Feature.Catalog

  The fixed lists that say which names in web sources count as features, which
  compatibility key a feature has, and what can stand in for it. Any change to
  a list is a new version of the catalog.
-/

namespace WebBaseline.Feature.Catalog

/-- The version of the lists below. -/
def version : Nat := 1

/-! ## Scripts -/

/-- Global objects and functions that count when a member of theirs is used. -/
def globals : List String :=
  ["fetch", "localStorage", "sessionStorage", "indexedDB", "crypto", "performance",
   "requestAnimationFrame", "IntersectionObserver", "ResizeObserver", "MutationObserver"]

/-- Global functions that count when called. -/
def calls : List String :=
  ["fetch", "requestAnimationFrame", "cancelAnimationFrame", "requestIdleCallback",
   "cancelIdleCallback", "addEventListener", "removeEventListener"]

/-- Constructors that count when something is constructed with them. -/
def constructors : List String :=
  ["IntersectionObserver", "ResizeObserver", "MutationObserver", "PerformanceObserver",
   "ReportingObserver", "BroadcastChannel", "MessageChannel", "Worker", "ServiceWorker",
   "SharedWorker", "WebSocket", "EventSource", "AbortController"]

/-! ## Markup -/

/-- Elements that count, in lower case. -/
def elements : List String :=
  ["dialog", "details", "summary", "progress", "meter", "time", "mark", "wbr", "ruby", "rt",
   "rp", "canvas", "svg", "video", "audio", "source", "track", "picture", "template", "slot"]

/-- Attributes that count, in lower case. -/
def attributes : List String :=
  ["contenteditable", "draggable", "dropzone", "hidden", "spellcheck", "translate", "role",
   "loading", "decoding", "fetchpriority"]

/-- Beginnings of attribute names that count. -/
def attributeFamilies : List String := ["aria-", "data-"]

/-! ## Support -/

/-- The compatibility key of a feature. -/
def compatKeys : List (String × String) :=
  [("css-property-grid", "css.properties.grid"),
   ("css-property-flexbox", "css.properties.display.flex"),
   ("css-property-gap", "css.properties.gap"),
   ("css-function-clamp", "css.types.clamp"),
   ("css-function-min", "css.types.min"),
   ("css-function-max", "css.types.max"),
   ("fetch", "api.fetch"),
   ("promise", "javascript.builtins.Promise"),
   ("async-await", "javascript.statements.async_function"),
   ("intersection-observer", "api.IntersectionObserver"),
   ("resize-observer", "api.ResizeObserver"),
   ("navigator-clipboard", "api.Navigator.clipboard"),
   ("navigator-geolocation", "api.Navigator.geolocation"),
   ("navigator-serviceworker", "api.Navigator.serviceWorker"),
   ("html-element-dialog", "html.elements.dialog"),
   ("html-element-details", "html.elements.details"),
   ("html-element-summary", "html.elements.summary")]

/-- The browsers that must all support a feature. -/
def coreBrowsers : List String :=
  ["chrome", "chrome_android", "edge", "firefox", "firefox_android", "safari", "safari_ios"]

/-! ## Hints -/

/-- Features with a well-known polyfill. -/
def polyfills : List String :=
  ["fetch", "abortcontroller", "intersectionobserver", "resizeobserver", "requestIdleCallback",
   "cancelIdleCallback", "broadcastchannel", "eventsource", "navigator-clipboard",
   "html-element-dialog", "html-element-details", "css-pseudo-focus-visible"]

/-- What can be used in place of a feature. -/
def alternatives : List (String × String) :=
  [("requestIdleCallback", "setTimeout"),
   ("navigator-clipboard", "document.execCommand('copy')"),
   ("navigator-share", "a copy-link fallback"),
   ("intersectionobserver", "scroll events with getBoundingClientRect()"),
   ("resizeobserver", "window resize events"),
   ("broadcastchannel", "storage events on localStorage"),
   ("sharedworker", "worker"),
   ("css-property-gap", "margins on child elements"),
   ("css-property-aspect-ratio", "padding-top percentage boxes"),
   ("css-pseudo-has", "a class toggled from JavaScript"),
   ("css-function-clamp", "min() and max()"),
   ("css-at-rule-container", "@media"),
   ("html-element-dialog", "a <div> with role=\"dialog\""),
   ("html-attribute-loading", "IntersectionObserver-based lazy loading")]

/-! ## Questions -/

/-- Whether members of this global count. -/
def isGlobal (name : String) : Bool := globals.contains name

/-- Whether calls of this function count. -/
def isCall (name : String) : Bool := calls.contains name

/-- Whether constructions with this constructor count. -/
def isConstructor (name : String) : Bool := constructors.contains name

/-- Whether the element counts; its name is in lower case. -/
def isElement (name : String) : Bool := elements.contains name

/-- Whether the attribute counts; its name is in lower case. -/
def isAttribute (name : String) : Bool :=
  attributes.contains name || attributeFamilies.any (fun family => name.startsWith family)

/-- The compatibility key of a feature, if it has one. -/
def compatKey? (feature : String) : Option String := compatKeys.lookup feature

/-- Whether a polyfill for the feature is well known. -/
def hasPolyfill (feature : String) : Bool := polyfills.contains feature

/-- What can be used in place of the feature. -/
def alternative? (feature : String) : Option String := alternatives.lookup feature

end WebBaseline.Feature.Catalog
