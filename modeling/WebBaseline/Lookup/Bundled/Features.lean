/-
  WebBaseline.Lookup.Bundled.Features

  The dataset that comes with the library: widely used features with what is
  known about them.
-/

import WebBaseline.Lookup.Dataset

namespace WebBaseline.Lookup

open WebBaseline.Data (KeyMap)

/-- The bundled entries by key. -/
def bundledEntries : List (String × Entry) :=
  [("abortcontroller",
    { name := "AbortController and AbortSignal"
      description := some
        "The AbortController and AbortSignal APIs allow you to cancel an ongoing operation, such as a fetch request."
      spec := some "https://dom.spec.whatwg.org/#interface-abortcontroller"
      aliases := ["api.AbortController", "api.AbortSignal"]
      standing := some {
        tier := some .high
        lowDate := some "2019-03-25"
        highDate := some "2021-09-25"
        support := KeyMap.ofList [("chrome", "66"), ("chrome_android", "66"), ("edge", "16"),
          ("firefox", "57"), ("firefox_android", "57"), ("safari", "12.1"),
          ("safari_ios", "12.2")] } }),
   ("aspect-ratio",
    { name := "aspect-ratio"
      description := some
        "The aspect-ratio CSS property sets a preferred width-to-height ratio for a box."
      spec := some "https://drafts.csswg.org/css-sizing-4/#aspect-ratio"
      aliases := ["css.properties.aspect-ratio"]
      standing := some {
        tier := some .high
        lowDate := some "2021-09-20"
        highDate := some "2024-03-20"
        support := KeyMap.ofList [("chrome", "88"), ("chrome_android", "88"), ("edge", "88"),
          ("firefox", "89"), ("firefox_android", "89"), ("safari", "15"), ("safari_ios", "15")] } }),
   ("async-clipboard",
    { name := "Async clipboard"
      description := some
        "The navigator.clipboard API asynchronously reads and writes to the system clipboard."
      spec := some "https://w3c.github.io/clipboard-apis/#async-clipboard-api"
      aliases := ["api.Clipboard", "api.Navigator.clipboard"]
      standing := some {
        tier := some .low
        lowDate := some "2024-06-11"
        support := KeyMap.ofList [("chrome", "66"), ("chrome_android", "66"), ("edge", "79"),
          ("firefox", "127"), ("firefox_android", "127"), ("safari", "13.1"),
          ("safari_ios", "13.4")] } }),
   ("broadcast-channel",
    { name := "BroadcastChannel"
      description := some
        "The BroadcastChannel API sends messages between browsing contexts and workers of the same origin."
      spec := some "https://html.spec.whatwg.org/multipage/web-messaging.html#broadcasting-to-other-browsing-contexts"
      aliases := ["api.BroadcastChannel"]
      standing := some {
        tier := some .high
        lowDate := some "2022-03-14"
        highDate := some "2024-09-14"
        support := KeyMap.ofList [("chrome", "54"), ("chrome_android", "54"), ("edge", "79"),
          ("firefox", "38"), ("firefox_android", "38"), ("safari", "15.4"),
          ("safari_ios", "15.4")] } }),
   ("canvas",
    { name := "Canvas 2D"
      description := some
        "The <canvas> element and its 2D drawing context render graphics from script."
      spec := some "https://html.spec.whatwg.org/multipage/canvas.html"
      aliases := ["html.elements.canvas", "api.CanvasRenderingContext2D"]
      standing := some {
        tier := some .high
        lowDate := some "2015-07-29"
        highDate := some "2018-01-29"
        support := KeyMap.ofList [("chrome", "1"), ("chrome_android", "18"), ("edge", "12"),
          ("firefox", "1.5"), ("firefox_android", "4"), ("safari", "2"), ("safari_ios", "1")] } }),
   ("cascade-layers",
    { name := "Cascade layers"
      description := some
        "The @layer at-rule declares cascade layers that control the precedence of style rules."
      spec := some "https://drafts.csswg.org/css-cascade-5/#layering"
      aliases := ["css.at-rules.layer"]
      standing := some {
        tier := some .high
        lowDate := some "2022-03-14"
        highDate := some "2024-09-14"
        support := KeyMap.ofList [("chrome", "99"), ("chrome_android", "99"), ("edge", "99"),
          ("firefox", "97"), ("firefox_android", "97"), ("safari", "15.4"),
          ("safari_ios", "15.4")] } }),
   ("channel-messaging",
    { name := "Channel messaging"
      description := some
        "The MessageChannel API creates a pair of connected ports for two-way messaging."
      spec := some "https://html.spec.whatwg.org/multipage/web-messaging.html#channel-messaging"
      aliases := ["api.MessageChannel", "api.MessagePort"]
      standing := some {
        tier := some .high
        lowDate := some "2015-09-30"
        highDate := some "2018-03-30"
        support := KeyMap.ofList [("chrome", "2"), ("chrome_android", "18"), ("edge", "12"),
          ("firefox", "41"), ("firefox_android", "41"), ("safari", "5"), ("safari_ios", "4.2")] } }),
   ("color-mix",
    { name := "color-mix()"
      description := some
        "The color-mix() CSS function mixes two colors in a given color space."
      spec := some "https://drafts.csswg.org/css-color-5/#color-mix"
      aliases := ["css.types.color.color-mix"]
      standing := some {
        tier := some .low
        lowDate := some "2023-05-09"
        support := KeyMap.ofList [("chrome", "111"), ("chrome_android", "111"), ("edge", "111"),
          ("firefox", "113"), ("firefox_android", "113"), ("safari", "16.2"),
          ("safari_ios", "16.2")] } }),
   ("container-queries",
    { name := "Container size queries"
      description := some
        "The @container at-rule applies styles based on the size of a containing element."
      spec := some "https://drafts.csswg.org/css-contain-3/#container-queries"
      aliases := ["css.at-rules.container"]
      standing := some {
        tier := some .low
        lowDate := some "2023-02-14"
        support := KeyMap.ofList [("chrome", "105"), ("chrome_android", "105"), ("edge", "105"),
          ("firefox", "110"), ("firefox_android", "110"), ("safari", "16"), ("safari_ios", "16")] } }),
   ("contenteditable",
    { name := "contenteditable"
      description := some
        "The contenteditable global attribute makes an element's content editable by the user."
      spec := some "https://html.spec.whatwg.org/multipage/interaction.html#attr-contenteditable"
      aliases := ["html.global_attributes.contenteditable"]
      standing := some {
        tier := some .high
        lowDate := some "2015-07-29"
        highDate := some "2018-01-29"
        support := KeyMap.ofList [("chrome", "1"), ("chrome_android", "18"), ("edge", "12"),
          ("firefox", "3"), ("firefox_android", "4"), ("safari", "3"), ("safari_ios", "1")] } }),
   ("details",
    { name := "<details> and <summary>"
      description := some
        "The <details> and <summary> elements create a disclosure widget that shows or hides content."
      spec := some "https://html.spec.whatwg.org/multipage/interactive-elements.html#the-details-element"
      aliases := ["html.elements.details", "html.elements.summary"]
      standing := some {
        tier := some .high
        lowDate := some "2020-01-15"
        highDate := some "2022-07-15"
        support := KeyMap.ofList [("chrome", "12"), ("chrome_android", "18"), ("edge", "79"),
          ("firefox", "49"), ("firefox_android", "49"), ("safari", "6"), ("safari_ios", "6")] } }),
   ("dialog",
    { name := "<dialog>"
      description := some
        "The <dialog> element represents a modal or non-modal dialog box."
      spec := some "https://html.spec.whatwg.org/multipage/interactive-elements.html#the-dialog-element"
      aliases := ["html.elements.dialog", "api.HTMLDialogElement"]
      standing := some {
        tier := some .high
        lowDate := some "2022-03-14"
        highDate := some "2024-09-14"
        support := KeyMap.ofList [("chrome", "37"), ("chrome_android", "37"), ("edge", "79"),
          ("firefox", "98"), ("firefox_android", "98"), ("safari", "15.4"),
          ("safari_ios", "15.4")] } }),
   ("fetch",
    { name := "Fetch"
      description := some
        "The fetch() method makes asynchronous HTTP requests."
      spec := some "https://fetch.spec.whatwg.org/#fetch-method"
      aliases := ["api.fetch", "api.Request", "api.Response", "api.Headers"]
      standing := some {
        tier := some .high
        lowDate := some "2017-03-27"
        highDate := some "2019-09-27"
        support := KeyMap.ofList [("chrome", "42"), ("chrome_android", "42"), ("edge", "14"),
          ("firefox", "39"), ("firefox_android", "39"), ("safari", "10.1"),
          ("safari_ios", "10.3")] } }),
   ("fetchpriority",
    { name := "Fetch priority"
      description := some
        "The fetchpriority attribute hints the relative priority of a resource fetch."
      spec := some "https://html.spec.whatwg.org/multipage/urls-and-fetching.html#fetch-priority-attributes"
      aliases := ["html.elements.img.fetchpriority"]
      standing := some {
        tier := some .low
        lowDate := some "2024-10-29"
        support := KeyMap.ofList [("chrome", "102"), ("chrome_android", "102"), ("edge", "102"),
          ("firefox", "132"), ("firefox_android", "132"), ("safari", "17.2"),
          ("safari_ios", "17.2")] } }),
   ("flexbox",
    { name := "Flexbox"
      description := some
        "Flexbox is a one-dimensional layout system that places items in a row or column."
      spec := some "https://drafts.csswg.org/css-flexbox-1/"
      aliases := ["css.properties.display.flex", "css.properties.flex"]
      standing := some {
        tier := some .high
        lowDate := some "2015-09-30"
        highDate := some "2018-03-30"
        support := KeyMap.ofList [("chrome", "29"), ("chrome_android", "29"), ("edge", "12"),
          ("firefox", "20"), ("firefox_android", "20"), ("safari", "9"), ("safari_ios", "9")] } }),
   ("gap",
    { name := "Gap"
      description := some
        "The gap CSS shorthand sets the gutters between rows and columns in flex, grid, and multi-column layouts."
      spec := some "https://drafts.csswg.org/css-align-3/#gap-shorthand"
      aliases := ["css.properties.gap"]
      standing := some {
        tier := some .low
        lowDate := some "2024-03-05"
        support := KeyMap.ofList [("chrome", "84"), ("chrome_android", "84"), ("edge", "84"),
          ("firefox", "63"), ("firefox_android", "63"), ("safari", "14.1"),
          ("safari_ios", "14.5")] } }),
   ("geolocation",
    { name := "Geolocation"
      description := some
        "The navigator.geolocation API retrieves the device's physical location."
      spec := some "https://w3c.github.io/geolocation/"
      aliases := ["api.Geolocation", "api.Navigator.geolocation"]
      standing := some {
        tier := some .high
        lowDate := some "2015-07-29"
        highDate := some "2018-01-29"
        support := KeyMap.ofList [("chrome", "5"), ("chrome_android", "18"), ("edge", "12"),
          ("firefox", "3.5"), ("firefox_android", "4"), ("safari", "5"), ("safari_ios", "3")] } }),
   ("grid",
    { name := "Grid"
      description := some
        "CSS grid is a two-dimensional layout system that lays content out in rows and columns."
      spec := some "https://drafts.csswg.org/css-grid-1/"
      aliases := ["css.properties.grid", "css.properties.grid-template-columns"]
      standing := some {
        tier := some .high
        lowDate := some "2017-10-17"
        highDate := some "2020-04-17"
        support := KeyMap.ofList [("chrome", "57"), ("chrome_android", "57"), ("edge", "16"),
          ("firefox", "52"), ("firefox_android", "52"), ("safari", "10.1"),
          ("safari_ios", "10.3")] } }),
   ("has",
    { name := "has()"
      description := some
        "The :has() CSS functional pseudo-class matches an element if any of the selectors passed as parameters would match."
      spec := some "https://drafts.csswg.org/selectors-4/#relational"
      aliases := ["css.selectors.has"]
      standing := some {
        tier := some .low
        lowDate := some "2023-12-19"
        support := KeyMap.ofList [("chrome", "105"), ("chrome_android", "105"), ("edge", "105"),
          ("firefox", "121"), ("firefox_android", "121"), ("safari", "15.4"),
          ("safari_ios", "15.4")] } }),
   ("hidden",
    { name := "hidden"
      description := some
        "The hidden global attribute hides an element from rendering."
      spec := some "https://html.spec.whatwg.org/multipage/interaction.html#the-hidden-attribute"
      aliases := ["html.global_attributes.hidden"]
      standing := some {
        tier := some .high
        lowDate := some "2015-07-29"
        highDate := some "2018-01-29"
        support := KeyMap.ofList [("chrome", "10"), ("chrome_android", "18"), ("edge", "12"),
          ("firefox", "4"), ("firefox_android", "4"), ("safari", "5.1"), ("safari_ios", "5")] } }),
   ("indexeddb",
    { name := "IndexedDB"
      description := some
        "IndexedDB is a transactional database for storing structured data in the browser."
      spec := some "https://w3c.github.io/IndexedDB/"
      aliases := ["api.IndexedDB", "api.IDBFactory"]
      standing := some {
        tier := some .high
        lowDate := some "2015-07-29"
        highDate := some "2018-01-29"
        support := KeyMap.ofList [("chrome", "24"), ("chrome_android", "25"), ("edge", "12"),
          ("firefox", "16"), ("firefox_android", "22"), ("safari", "10"), ("safari_ios", "10")] } }),
   ("intersection-observer",
    { name := "Intersection observer"
      description := some
        "The IntersectionObserver API observes changes in the visibility of elements relative to a scroll container or the viewport."
      spec := some "https://w3c.github.io/IntersectionObserver/"
      aliases := ["api.IntersectionObserver"]
      standing := some {
        tier := some .high
        lowDate := some "2019-03-25"
        highDate := some "2021-09-25"
        support := KeyMap.ofList [("chrome", "51"), ("chrome_android", "51"), ("edge", "15"),
          ("firefox", "55"), ("firefox_android", "55"), ("safari", "12.1"),
          ("safari_ios", "12.2")] } }),
   ("lazy-loading",
    { name := "Lazy-loading images"
      description := some
        "The loading=\"lazy\" attribute defers loading images until they are near the viewport."
      spec := some "https://html.spec.whatwg.org/multipage/urls-and-fetching.html#lazy-loading-attributes"
      aliases := ["html.elements.img.loading"]
      standing := some {
        tier := some .high
        lowDate := some "2022-12-13"
        highDate := some "2025-06-13"
        support := KeyMap.ofList [("chrome", "77"), ("chrome_android", "77"), ("edge", "79"),
          ("firefox", "75"), ("firefox_android", "79"), ("safari", "15.4"),
          ("safari_ios", "15.4")] } }),
   ("localstorage",
    { name := "localStorage"
      description := some
        "The localStorage API stores key-value pairs that persist across browser sessions."
      spec := some "https://html.spec.whatwg.org/multipage/webstorage.html#dom-localstorage"
      aliases := ["api.Window.localStorage"]
      standing := some {
        tier := some .high
        lowDate := some "2015-07-29"
        highDate := some "2018-01-29"
        support := KeyMap.ofList [("chrome", "4"), ("chrome_android", "18"), ("edge", "12"),
          ("firefox", "3.5"), ("firefox_android", "4"), ("safari", "4"), ("safari_ios", "3.2")] } }),
   ("mutationobserver",
    { name := "MutationObserver"
      description := some
        "The MutationObserver API observes changes to the DOM tree."
      spec := some "https://dom.spec.whatwg.org/#interface-mutationobserver"
      aliases := ["api.MutationObserver"]
      standing := some {
        tier := some .high
        lowDate := some "2015-07-29"
        highDate := some "2018-01-29"
        support := KeyMap.ofList [("chrome", "26"), ("chrome_android", "26"), ("edge", "12"),
          ("firefox", "14"), ("firefox_android", "14"), ("safari", "7"), ("safari_ios", "7")] } }),
   ("nesting",
    { name := "Nesting"
      description := some
        "CSS nesting lets style rules be written inside other style rules."
      spec := some "https://drafts.csswg.org/css-nesting-1/"
      aliases := ["css.selectors.nesting"]
      standing := some {
        tier := some .low
        lowDate := some "2023-12-11"
        support := KeyMap.ofList [("chrome", "120"), ("chrome_android", "120"), ("edge", "120"),
          ("firefox", "117"), ("firefox_android", "117"), ("safari", "17.2"),
          ("safari_ios", "17.2")] } }),
   ("performance-observer",
    { name := "PerformanceObserver"
      description := some
        "The PerformanceObserver API observes performance measurement events as they are recorded."
      spec := some "https://w3c.github.io/performance-timeline/#the-performanceobserver-interface"
      aliases := ["api.PerformanceObserver"]
      standing := some {
        tier := some .high
        lowDate := some "2020-01-15"
        highDate := some "2022-07-15"
        support := KeyMap.ofList [("chrome", "52"), ("chrome_android", "52"), ("edge", "79"),
          ("firefox", "57"), ("firefox_android", "57"), ("safari", "11"), ("safari_ios", "11")] } }),
   ("picture",
    { name := "<picture>"
      description := some
        "The <picture> element offers alternative image sources for different display conditions."
      spec := some "https://html.spec.whatwg.org/multipage/embedded-content.html#the-picture-element"
      aliases := ["html.elements.picture"]
      standing := some {
        tier := some .high
        lowDate := some "2016-09-20"
        highDate := some "2019-03-20"
        support := KeyMap.ofList [("chrome", "38"), ("chrome_android", "38"), ("edge", "13"),
          ("firefox", "38"), ("firefox_android", "38"), ("safari", "9.1"), ("safari_ios", "9.3")] } }),
   ("popover",
    { name := "Popover"
      description := some
        "The popover attribute turns an element into a top-layer popover."
      spec := some "https://html.spec.whatwg.org/multipage/popover.html"
      aliases := ["html.global_attributes.popover", "api.HTMLElement.showPopover"]
      standing := some {
        tier := some .low
        lowDate := some "2024-04-16"
        support := KeyMap.ofList [("chrome", "114"), ("chrome_android", "114"), ("edge", "114"),
          ("firefox", "125"), ("firefox_android", "125"), ("safari", "17"), ("safari_ios", "17")] } }),
   ("reporting-observer",
    { name := "ReportingObserver"
      description := some
        "The ReportingObserver API collects deprecation and intervention reports."
      spec := some "https://w3c.github.io/reporting/#observers"
      aliases := ["api.ReportingObserver"]
      standing := some {
        tier := some .notBaseline
        support := KeyMap.ofList [("chrome", "69"), ("chrome_android", "69"), ("edge", "79"),
          ("safari", "16.4"), ("safari_ios", "16.4")] } }),
   ("request-animation-frame",
    { name := "requestAnimationFrame()"
      description := some
        "The requestAnimationFrame() method schedules a callback before the next repaint."
      spec := some "https://html.spec.whatwg.org/multipage/imagebitmap-and-animations.html#animation-frames"
      aliases := ["api.Window.requestAnimationFrame", "api.Window.cancelAnimationFrame"]
      standing := some {
        tier := some .high
        lowDate := some "2015-07-29"
        highDate := some "2018-01-29"
        support := KeyMap.ofList [("chrome", "24"), ("chrome_android", "25"), ("edge", "12"),
          ("firefox", "23"), ("firefox_android", "23"), ("safari", "7"), ("safari_ios", "7")] } }),
   ("request-idle-callback",
    { name := "requestIdleCallback()"
      description := some
        "The requestIdleCallback() method queues a callback to run during idle periods."
      spec := some "https://w3c.github.io/requestidlecallback/"
      aliases := ["api.Window.requestIdleCallback", "api.Window.cancelIdleCallback"]
      standing := some {
        tier := some .notBaseline
        support := KeyMap.ofList [("chrome", "47"), ("chrome_android", "47"), ("edge", "79"),
          ("firefox", "55"), ("firefox_android", "55")] } }),
   ("resize-observer",
    { name := "Resize observer"
      description := some
        "The ResizeObserver API observes changes to the size of elements."
      spec := some "https://drafts.csswg.org/resize-observer/"
      aliases := ["api.ResizeObserver"]
      standing := some {
        tier := some .high
        lowDate := some "2020-03-24"
        highDate := some "2022-09-24"
        support := KeyMap.ofList [("chrome", "64"), ("chrome_android", "64"), ("edge", "79"),
          ("firefox", "69"), ("firefox_android", "79"), ("safari", "13.1"),
          ("safari_ios", "13.4")] } }),
   ("server-sent-events",
    { name := "Server-sent events"
      description := some
        "The EventSource API receives a stream of events pushed by a server over HTTP."
      spec := some "https://html.spec.whatwg.org/multipage/server-sent-events.html"
      aliases := ["api.EventSource"]
      standing := some {
        tier := some .high
        lowDate := some "2020-01-15"
        highDate := some "2022-07-15"
        support := KeyMap.ofList [("chrome", "6"), ("chrome_android", "18"), ("edge", "79"),
          ("firefox", "6"), ("firefox_android", "45"), ("safari", "5"), ("safari_ios", "4")] } }),
   ("service-workers",
    { name := "Service workers"
      description := some
        "Service workers act as proxy servers between web applications, the browser, and the network."
      spec := some "https://w3c.github.io/ServiceWorker/"
      aliases := ["api.ServiceWorker", "api.Navigator.serviceWorker"]
      standing := some {
        tier := some .high
        lowDate := some "2018-04-30"
        highDate := some "2020-10-30"
        support := KeyMap.ofList [("chrome", "40"), ("chrome_android", "40"), ("edge", "17"),
          ("firefox", "44"), ("firefox_android", "44"), ("safari", "11.1"),
          ("safari_ios", "11.3")] } }),
   ("sessionstorage",
    { name := "sessionStorage"
      description := some
        "The sessionStorage API stores key-value pairs for the lifetime of a page session."
      spec := some "https://html.spec.whatwg.org/multipage/webstorage.html#dom-sessionstorage"
      aliases := ["api.Window.sessionStorage"]
      standing := some {
        tier := some .high
        lowDate := some "2015-07-29"
        highDate := some "2018-01-29"
        support := KeyMap.ofList [("chrome", "5"), ("chrome_android", "18"), ("edge", "12"),
          ("firefox", "2"), ("firefox_android", "4"), ("safari", "4"), ("safari_ios", "3.2")] } }),
   ("shared-workers",
    { name := "Shared workers"
      description := some
        "Shared workers are workers that can be accessed from several browsing contexts."
      spec := some "https://html.spec.whatwg.org/multipage/workers.html#shared-workers-and-the-sharedworker-interface"
      aliases := ["api.SharedWorker"]
      standing := some {
        tier := some .notBaseline
        support := KeyMap.ofList [("chrome", "4"), ("edge", "79"), ("firefox", "29"),
          ("firefox_android", "33"), ("safari", "16"), ("safari_ios", "16")] } }),
   ("subgrid",
    { name := "Subgrid"
      description := some
        "The subgrid value for grid-template-columns and grid-template-rows lets a nested grid use its parent's tracks."
      spec := some "https://drafts.csswg.org/css-grid-2/#subgrids"
      aliases := ["css.properties.grid-template-columns.subgrid"]
      standing := some {
        tier := some .low
        lowDate := some "2023-09-15"
        support := KeyMap.ofList [("chrome", "117"), ("chrome_android", "117"), ("edge", "117"),
          ("firefox", "71"), ("firefox_android", "79"), ("safari", "16"), ("safari_ios", "16")] } }),
   ("template",
    { name := "<template>"
      description := some
        "The <template> element holds HTML that is not rendered but can be instantiated from script."
      spec := some "https://html.spec.whatwg.org/multipage/scripting.html#the-template-element"
      aliases := ["html.elements.template"]
      standing := some {
        tier := some .high
        lowDate := some "2015-11-12"
        highDate := some "2018-05-12"
        support := KeyMap.ofList [("chrome", "26"), ("chrome_android", "26"), ("edge", "13"),
          ("firefox", "22"), ("firefox_android", "22"), ("safari", "8"), ("safari_ios", "8")] } }),
   ("view-transitions",
    { name := "View transitions"
      description := some
        "The View Transition API animates between DOM states."
      spec := some "https://drafts.csswg.org/css-view-transitions-1/"
      aliases := ["api.Document.startViewTransition"]
      standing := some {
        tier := some .notBaseline
        support := KeyMap.ofList [("chrome", "111"), ("chrome_android", "111"), ("edge", "111"),
          ("safari", "18"), ("safari_ios", "18")] } }),
   ("web-share",
    { name := "Web share"
      description := some
        "The navigator.share() method invokes the platform's native sharing mechanism."
      spec := some "https://w3c.github.io/web-share/"
      aliases := ["api.Navigator.share"]
      standing := some {
        tier := some .notBaseline
        support := KeyMap.ofList [("chrome", "89"), ("chrome_android", "61"), ("edge", "93"),
          ("firefox_android", "79"), ("safari", "12.1"), ("safari_ios", "12.2")] } }),
   ("websockets",
    { name := "WebSockets"
      description := some
        "The WebSocket API opens a two-way interactive session between the browser and a server."
      spec := some "https://websockets.spec.whatwg.org/"
      aliases := ["api.WebSocket"]
      standing := some {
        tier := some .high
        lowDate := some "2015-07-29"
        highDate := some "2018-01-29"
        support := KeyMap.ofList [("chrome", "5"), ("chrome_android", "18"), ("edge", "12"),
          ("firefox", "11"), ("firefox_android", "14"), ("safari", "5"), ("safari_ios", "4.2")] } }),
   ("workers",
    { name := "Web workers"
      description := some
        "Web workers run scripts in background threads."
      spec := some "https://html.spec.whatwg.org/multipage/workers.html"
      aliases := ["api.Worker"]
      standing := some {
        tier := some .high
        lowDate := some "2015-07-29"
        highDate := some "2018-01-29"
        support := KeyMap.ofList [("chrome", "4"), ("chrome_android", "18"), ("edge", "12"),
          ("firefox", "3.5"), ("firefox_android", "4"), ("safari", "4"), ("safari_ios", "5")] } })]

/-- The bundled dataset. -/
def Dataset.bundled : Dataset := ⟨KeyMap.ofList bundledEntries⟩

end WebBaseline.Lookup
