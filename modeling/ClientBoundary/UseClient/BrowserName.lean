/-! Names that only a browser provides: what a window offers, without what a server offers under the
same name. -/
namespace ClientBoundary.UseClient

/-- Names that code in a browser window finds. -/
def browserNames : List String := [
  "window", "Window", "self", "frames", "parent", "top", "opener", "frameElement", "closed",
  "length", "name", "origin", "status", "defaultStatus", "event", "external", "isSecureContext",
  "clientInformation", "offscreenBuffering", "styleMedia", "document", "Document",
  "DocumentFragment", "DocumentType", "HTMLDocument", "XMLDocument", "Node", "NodeFilter",
  "NodeList", "Element", "Attr", "CharacterData", "Comment", "CDATASection", "Text", "Range",
  "Selection", "ShadowRoot", "TreeWalker", "DOMParser", "DOMRect", "DOMTokenList",
  "XMLSerializer", "XPathResult", "HTMLCollection", "HTMLElement", "HTMLAnchorElement",
  "HTMLButtonElement", "HTMLCanvasElement", "HTMLDivElement", "HTMLFormElement",
  "HTMLIFrameElement", "HTMLImageElement", "HTMLInputElement", "HTMLMediaElement",
  "HTMLSelectElement", "HTMLTextAreaElement", "HTMLVideoElement", "SVGElement", "SVGSVGElement",
  "customElements", "CustomElementRegistry", "Event", "EventTarget", "CustomEvent",
  "AnimationEvent", "BeforeUnloadEvent", "ClipboardEvent", "CloseEvent", "CompositionEvent",
  "DragEvent", "ErrorEvent", "FocusEvent", "HashChangeEvent", "InputEvent", "KeyboardEvent",
  "MessageEvent", "MouseEvent", "PointerEvent", "PopStateEvent", "ProgressEvent", "StorageEvent",
  "SubmitEvent", "Touch", "TouchEvent", "TouchList", "TransitionEvent", "UIEvent", "WheelEvent",
  "addEventListener", "removeEventListener", "dispatchEvent", "onblur", "onchange", "onclick",
  "onerror", "onfocus", "onhashchange", "onkeydown", "onkeyup", "onload", "onmessage",
  "onpopstate", "onresize", "onscroll", "onunload", "location", "Location", "history", "History",
  "navigator", "Navigator", "postMessage", "screen", "Screen", "screenLeft", "screenTop",
  "screenX", "screenY", "innerWidth", "innerHeight", "outerWidth", "outerHeight", "pageXOffset",
  "pageYOffset", "scrollX", "scrollY", "devicePixelRatio", "visualViewport", "BarProp",
  "locationbar", "menubar", "scrollbars", "statusbar", "toolbar", "scroll", "scrollBy",
  "scrollTo", "moveBy", "moveTo", "resizeBy", "resizeTo", "focus", "blur", "stop", "find",
  "alert", "confirm", "prompt", "open", "close", "print", "localStorage", "sessionStorage",
  "Storage", "indexedDB", "IDBDatabase", "IDBFactory", "IDBKeyRange", "IDBObjectStore",
  "IDBRequest", "IDBTransaction", "caches", "requestAnimationFrame", "cancelAnimationFrame",
  "requestIdleCallback", "cancelIdleCallback", "IdleDeadline", "setTimeout", "clearTimeout",
  "setInterval", "clearInterval", "queueMicrotask", "IntersectionObserver",
  "IntersectionObserverEntry", "MutationObserver", "MutationRecord", "ResizeObserver",
  "ResizeObserverEntry", "PerformanceObserver", "CSS", "CSSRule", "CSSStyleDeclaration",
  "CSSStyleSheet", "FontFace", "getComputedStyle", "getSelection", "matchMedia", "MediaQueryList",
  "Audio", "AudioBuffer", "AudioContext", "AudioNode", "AudioParam", "AnalyserNode", "Animation",
  "AnimationEffect", "Image", "ImageBitmap", "ImageData", "createImageBitmap", "CanvasGradient",
  "CanvasPattern", "CanvasRenderingContext2D", "OffscreenCanvas", "Path2D",
  "WebGLRenderingContext", "WebGL2RenderingContext", "MediaRecorder", "MediaSource",
  "MediaStream", "speechSynthesis", "Notification", "Gamepad", "Geolocation", "Blob", "File",
  "FileList", "FileReader", "DataTransfer", "Clipboard", "fetch", "Headers", "Request",
  "Response", "FormData", "URL", "URLSearchParams", "XMLHttpRequest", "WebSocket", "EventSource",
  "BroadcastChannel", "MessageChannel", "MessagePort", "ReadableStream", "AbortController",
  "AbortSignal", "Worker", "SharedWorker", "atob", "btoa", "console", "crypto", "Crypto",
  "CryptoKey", "DOMException", "performance", "structuredClone", "TextDecoder", "TextEncoder"]

/-- Names that code on a server finds as well. -/
def sharedNames : List String := [
  "__dirname", "__filename", "AbortController", "AbortSignal", "atob", "Blob", "BroadcastChannel",
  "btoa", "Buffer", "ByteLengthQueuingStrategy", "clearImmediate", "clearInterval",
  "clearTimeout", "CompressionStream", "console", "CountQueuingStrategy", "crypto", "Crypto",
  "CryptoKey", "CustomEvent", "DecompressionStream", "DOMException", "Event", "EventTarget",
  "exports", "fetch", "File", "FormData", "global", "Headers", "Intl", "MessageChannel",
  "MessageEvent", "MessagePort", "module", "performance", "PerformanceEntry", "PerformanceMark",
  "PerformanceMeasure", "PerformanceObserver", "PerformanceObserverEntryList",
  "PerformanceResourceTiming", "process", "queueMicrotask", "ReadableByteStreamController",
  "ReadableStream", "ReadableStreamBYOBReader", "ReadableStreamBYOBRequest",
  "ReadableStreamDefaultController", "ReadableStreamDefaultReader", "Request", "require",
  "Response", "setImmediate", "setInterval", "setTimeout", "structuredClone", "SubtleCrypto",
  "TextDecoder", "TextDecoderStream", "TextEncoder", "TextEncoderStream", "TransformStream",
  "TransformStreamDefaultController", "URL", "URLSearchParams", "WebAssembly", "WritableStream",
  "WritableStreamDefaultController", "WritableStreamDefaultWriter"]

def browserOnlyNames : List String := browserNames.filter fun name => !sharedNames.contains name

def isBrowserOnly (name : String) : Bool := browserNames.contains name && !sharedNames.contains name

end ClientBoundary.UseClient
