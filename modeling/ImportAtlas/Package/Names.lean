import ImportAtlas.Text.Segment

/-!
# Packages that are treated apart

Some packages are used through configuration, style sheets or tooling, so that no import shows
their use; others are built into the platform and never declared.
-/

namespace ImportAtlas.Package

/-- Packages used through configuration, style sheets or tooling. -/
def special : List Text :=
  List.map Text.ofString
    ["@shadcn/ui", "tailwindcss-animate", "@tailwindcss/typography", "@tailwindcss/forms",
     "@tailwindcss/aspect-ratio", "@tailwindcss/container-queries", "tailwindcss-gradients",
     "daisyui", "autoprefixer", "normalize.css", "reset-css", "@fontsource/inter", "@next/font",
     "postcss-preset-env", "postcss-nested", "postcss-import", "postcss-flexbugs-fixes",
     "@babel/preset-env", "@babel/preset-react", "@babel/preset-typescript", "@babel/runtime",
     "eslint-config-next", "eslint-config-prettier", "eslint-config-airbnb", "eslint-config-turbo",
     "babel-loader", "style-loader", "css-loader", "file-loader", "url-loader", "@types/node",
     "@types/webpack-env", "core-js", "regenerator-runtime", "tslib", "browserslist",
     "@next/bundle-analyzer", "@next/mdx", "next-sitemap", "next-pwa", "@vitejs/plugin-react",
     "@vitejs/plugin-vue", "vite-tsconfig-paths", "@testing-library/react", "react-refresh",
     "@nuxtjs/robots", "@nuxtjs/sitemap", "@sveltejs/adapter-auto", "prisma", "@prisma/client",
     "@graphql-codegen/cli", "@graphql-codegen/typescript", "module-alias", "tsconfig-paths",
     "dotenv-expand", "cross-env", "terser", "cssnano", "@storybook/addon-essentials",
     "@storybook/addon-links", "@storybook/addon-docs", "jsdom", "identity-obj-proxy",
     "@changesets/cli", "turborepo", "workbox-webpack-plugin", "workbox-window", "helmet", "cors",
     "sharp", "svgr"]

/-- Packages that serve development only. -/
def devTools : List Text :=
  List.map Text.ofString
    ["vite", "webpack", "rollup", "esbuild", "turbopack", "parcel", "@vitejs/plugin-react-swc",
     "typescript", "babel", "@babel/core", "swc", "@swc/core", "tsup", "jest", "vitest",
     "@testing-library/vue", "@testing-library/jest-dom", "@testing-library/user-event", "cypress",
     "@cypress/vite-dev-server", "playwright", "@playwright/test", "eslint", "prettier",
     "@typescript-eslint/parser", "@typescript-eslint/eslint-plugin", "eslint-plugin-react",
     "eslint-plugin-react-hooks", "eslint-plugin-jsx-a11y", "eslint-plugin-import", "stylelint",
     "stylelint-config-standard", "@types/react", "@types/react-dom", "@types/jest",
     "@types/express", "postcss", "tailwindcss", "sass", "less", "stylus", "nodemon",
     "concurrently", "live-server", "http-server", "storybook", "@storybook/react",
     "@storybook/builder-vite", "typedoc", "docsify", "docusaurus", "turbo", "nx", "lerna",
     "compression-webpack-plugin", "plop", "hygen", "yeoman-generator", "husky", "lint-staged",
     "commitlint", "@commitlint/cli", "@commitlint/config-conventional", "@microsoft/rush",
     "npm-check-updates", "depcheck", "dotenv-cli", "webpack-bundle-analyzer",
     "vite-bundle-visualizer", "source-map-explorer", "semantic-release", "standard-version",
     "release-it", "imagemin", "svgo", "storybook-addon-designs", "msw", "json-server", "gh-pages",
     "firebase-tools", "vercel", "netlify-cli", "debug", "why-did-you-render", "react-devtools",
     "snyk", "npm-audit-fix", "i18next-parser", "swagger-jsdoc", "swagger-ui-express", "lighthouse",
     "web-vitals"]

/-- Modules of the platform. -/
def builtins : List Text :=
  List.map Text.ofString
    ["assert", "async_hooks", "buffer", "child_process", "cluster", "console", "constants",
     "crypto", "dgram", "diagnostics_channel", "dns", "domain", "events", "fs", "http", "http2",
     "https", "inspector", "module", "net", "os", "path", "perf_hooks", "process", "punycode",
     "querystring", "readline", "repl", "stream", "string_decoder", "timers", "tls", "trace_events",
     "tty", "url", "util", "v8", "vm", "wasi", "worker_threads", "zlib"]

def isSpecial (name : Text) : Bool := special.contains name

def isDevTool (name : Text) : Bool := devTools.contains name

/-- A module of the platform, by its name or behind the platform's scheme. -/
def isBuiltin (name : Text) : Bool :=
  Text.startsWith name "node:" || builtins.contains name

end ImportAtlas.Package
