/-! Attributes of elements that always take a function. -/
namespace ClientBoundary.UseClient

def eventNames : List String := [
  "onCopy", "onCut", "onPaste", "onCompositionEnd", "onCompositionStart", "onCompositionUpdate",
  "onKeyDown", "onKeyPress", "onKeyUp", "onFocus", "onBlur", "onBeforeInput", "onChange",
  "onInput", "onInvalid", "onReset", "onSubmit", "onError", "onLoad", "onClick", "onContextMenu",
  "onDoubleClick", "onDrag", "onDragEnd", "onDragEnter", "onDragExit", "onDragLeave",
  "onDragOver", "onDragStart", "onDrop", "onMouseDown", "onMouseEnter", "onMouseLeave",
  "onMouseMove", "onMouseOut", "onMouseOver", "onMouseUp", "onPointerDown", "onPointerMove",
  "onPointerUp", "onPointerCancel", "onGotPointerCapture", "onLostPointerCapture",
  "onPointerEnter", "onPointerLeave", "onPointerOver", "onPointerOut", "onSelect",
  "onTouchCancel", "onTouchEnd", "onTouchMove", "onTouchStart", "onScroll", "onScrollEnd",
  "onWheel", "onAbort", "onCanPlay", "onCanPlayThrough", "onDurationChange", "onEmptied",
  "onEncrypted", "onEnded", "onLoadedData", "onLoadedMetadata", "onLoadStart", "onPause",
  "onPlay", "onPlaying", "onProgress", "onRateChange", "onSeeked", "onSeeking", "onStalled",
  "onSuspend", "onTimeUpdate", "onVolumeChange", "onWaiting", "onAnimationStart",
  "onAnimationEnd", "onAnimationIteration", "onTransitionCancel", "onTransitionEnd",
  "onTransitionRun", "onTransitionStart", "onCancel", "onClose", "onToggle", "onBeforeToggle"]

def isEventName (name : String) : Bool := eventNames.contains name

end ClientBoundary.UseClient
